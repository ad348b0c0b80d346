import ModuleRoutes.Proofs.Section.Paths
import ModuleRoutes.Proofs.Text.Search
import ModuleRoutes.Proofs.Text.Trimmed
import ModuleRoutes.Registration.Line

/-!
# The lines that write a route

A router source writes a route in one line that registers its method on its path, and its stub names
the section and the action of its key in another. Read back, the first line gives the method and the
path and no label (`ModuleRoutes.Registration.WritesRegistration.registered?_eq`), the second the
label and no registration (`ModuleRoutes.Registration.WritesLabel.stubLabel?_eq`), whatever blanks
stand around them.
-/

namespace ModuleRoutes

namespace Text

/-- A search passes over blanks when the pattern begins with another character. -/
theorem afterFirst?_append_of_isBlank {pattern before : List Char} {p : Char}
    (begins : pattern.head? = some p) (solid : isBlank p = false)
    (blank : ∀ c ∈ before, isBlank c = true) (rest : List Char) :
    afterFirst? pattern (before ++ rest) = afterFirst? pattern rest := by
  have nonempty : pattern ≠ [] := by
    rintro rfl
    cases begins
  apply afterFirst?_append_of_head nonempty
  intro c member same
  rw [begins, Option.some.injEq] at same
  rw [same, blank c member] at solid
  cases solid

end Text

namespace Registration

/-- The call that registers a route. -/
def registrationText (route : Route) : String :=
  "router." ++ route.method.lowerText ++ "('" ++ route.path ++ "', (req, res) => \x7b"

/-- The section that a stub names for a key: the noun of a resource, and otherwise the kind. -/
def sectionName (key : HandlerKey) : String := key.resource.getD key.kind.text

/-- The call in a stub that names the section and the action of a key. -/
def labelText (key : HandlerKey) : String :=
  "res.json(\x7b section: '" ++ sectionName key ++ "', action: '" ++ key.action ++ "' \x7d);"

/-- A line that registers a route, blanks around the call apart. -/
def WritesRegistration (route : Route) (line : List Char) : Prop :=
  Text.trim line = (registrationText route).toList

/-- A line that names the section and the action of a key, blanks around the call apart. -/
def WritesLabel (key : HandlerKey) (line : List Char) : Prop :=
  Text.trim line = (labelText key).toList

theorem cutAt?_append {c : Char} {before after : List Char} (absent : c ∉ before) :
    cutAt? c (before ++ c :: after) = some (before, after) := by
  induction before with
  | nil => rw [List.nil_append, cutAt?, if_pos rfl]
  | cons d before ih =>
      have different : d ≠ c := fun same => absent (same ▸ List.mem_cons_self)
      have later : c ∉ before := fun member => absent (List.mem_cons_of_mem _ member)
      rw [List.cons_append, cutAt?, if_neg different, ih later]
      rfl

/-- A text in single quotes is read up to the closing quote. -/
theorem quotedText?_append {body after : List Char} (absent : '\'' ∉ body) :
    quotedText? ('\'' :: body ++ '\'' :: after) = some body := by
  have kept : ('\'' :: body ++ '\'' :: after).dropWhile Text.isBlank =
      '\'' :: (body ++ '\'' :: after) :=
    List.dropWhile_cons_of_neg (by decide)
  rw [quotedText?, kept]
  change (if isQuote '\'' then (cutAt? '\'' (body ++ '\'' :: after)).map Prod.fst else none) = _
  rw [if_pos (by decide), cutAt?_append absent]
  rfl

/-! ## Characters of the parts -/

theorem not_mem_of_isToken {token : String} (isToken : Name.IsToken token) {c : Char}
    (foreign : c ≠ '-' ∧ Name.isTokenChar c = false) : c ∉ token.toList := by
  intro member
  rcases isToken.mem_toList member with hyphen | letter
  · exact foreign.1 hyphen
  · rw [foreign.2] at letter
    cases letter

theorem not_mem_of_isBlank {text : List Char} (blank : ∀ c ∈ text, Text.isBlank c = true) {c : Char}
    (solid : Text.isBlank c = false) : c ∉ text := by
  intro member
  rw [blank c member] at solid
  cases solid

variable {route : Route} {key : HandlerKey} {line : List Char}

/-- A written registration, piece by piece. -/
theorem WritesRegistration.exists_pieces (written : WritesRegistration route line) :
    ∃ before after, (∀ c ∈ before, Text.isBlank c = true) ∧ (∀ c ∈ after, Text.isBlank c = true) ∧
      line = before ++ ("router.".toList ++ (route.method.lowerText.toList ++ '(' ::
        ('\'' :: route.path.toList ++ '\'' :: (", (req, res) => \x7b".toList ++ after)))) := by
  obtain ⟨before, after, shape, blankBefore, blankAfter⟩ := Text.exists_of_trim line
  refine ⟨before, after, blankBefore, blankAfter, ?_⟩
  rw [shape, written, registrationText]
  simp

theorem parse_lowerText (method : Method) :
    (Method.parse (String.ofList (Text.trim method.lowerText.toList))).toOption = some method := by
  cases method <;> decide +kernel

theorem not_mem_of_hasPlainSegments {path : String} (plain : HasPlainSegments path) {c : Char}
    (foreign : c ≠ '/' ∧ c ≠ ':' ∧ c ≠ '-' ∧ Name.isTokenChar c = false) : c ∉ path.toList := by
  intro member
  rcases plain.mem_toList member with slash | colon | hyphen | letter
  · exact foreign.1 slash
  · exact foreign.2.1 colon
  · exact foreign.2.2.1 hyphen
  · rw [foreign.2.2.2] at letter
    cases letter

/-- A route's path is clean as it is. -/
theorem cleanPath_toList {path : String} (plain : HasPlainSegments path) :
    cleanPath path.toList = path := by
  have trimmed : Text.trim path.toList = path.toList := by
    apply Text.stripWhile_eq_self
    intro c member
    rcases plain.mem_toList member with rfl | rfl | rfl | letter
    · decide
    · decide
    · decide
    · exact (Name.isPlain_of_isTokenChar letter).notBlank
  obtain ⟨parts, rfl, nonempty, tokens⟩ := plain
  have filled : ∀ piece ∈ parts.map String.toList, piece ≠ [] ∧ piece.getLast? ≠ some '/' := by
    rw [List.forall_mem_map]
    intro segment isPart
    by_cases item : segment = ":id"
    · subst item
      exact ⟨by decide, by decide⟩
    · have isToken := tokens segment isPart item
      exact ⟨isToken.toList_ne_nil, fun last => isToken.slash_not_mem (List.mem_of_getLast? last)⟩
  have unslashed : Text.dropEndWhile (· = '/') ("/" ++ Text.joined "/" parts).toList =
      ("/" ++ Text.joined "/" parts).toList := by
    apply Text.dropEndWhile_of_getLast?
    intro c last
    obtain ⟨piece, isPiece, ends⟩ := Text.exists_getLast?_joinWith "/".toList
      (by simpa using nonempty) fun piece member => (filled piece member).1
    have nonemptyPiece := List.getLast?_eq_some_getLast (filled piece isPiece).1
    rw [String.toList_append, Text.toList_joined, List.getLast?_append, ends, nonemptyPiece,
      Option.some_or, ← nonemptyPiece] at last
    rw [decide_eq_false_iff_not]
    rintro rfl
    exact (filled piece isPiece).2 last
  have slashed : ("/" ++ Text.joined "/" parts).toList = '/' :: (Text.joined "/" parts).toList := by
    rw [String.toList_append]
    rfl
  rw [cleanPath, trimmed, unslashed, slashed]
  change String.ofList ('/' :: (Text.joined "/" parts).toList) = _
  rw [← slashed, String.ofList_toList]

theorem WritesRegistration.registered?_eq (written : WritesRegistration route line)
    (plain : HasPlainSegments route.path) :
    registered? line = some (route.method, route.path.toList) := by
  obtain ⟨before, after, blankBefore, -, rfl⟩ := written.exists_pieces
  have opening : '(' ∉ route.method.lowerText.toList :=
    not_mem_of_isToken (Section.isToken_lowerText _) (by decide)
  have quote : '\'' ∉ route.path.toList := not_mem_of_hasPlainSegments plain (by decide)
  rw [registered?, Text.afterFirst?_append_of_isBlank rfl (by decide) blankBefore,
    Text.afterFirst?_append_self (by decide)]
  simp only [Option.bind_eq_bind, Option.bind_some, cutAt?_append opening, parse_lowerText,
    quotedText?_append quote]
  rfl

/-- A path holds no label: a colon in it stands before `id`. -/
theorem afterFirst?_section_path {path : String} (plain : HasPlainSegments path)
    (rest : List Char) :
    Text.afterFirst? "section:".toList (path.toList ++ '\'' :: rest) =
      Text.afterFirst? "section:".toList rest := by
  obtain ⟨parts, rfl, nonempty, tokens⟩ := plain
  have lacking : ∀ piece ∈ parts.map String.toList, ∃ d ∈ "section:".toList, d ∉ piece := by
    rw [List.forall_mem_map]
    intro segment isPart
    by_cases item : segment = ":id"
    · subst item
      exact ⟨'s', by decide, by decide⟩
    · exact ⟨':', by decide, not_mem_of_isToken (tokens segment isPart item) (by decide)⟩
  have slash := @Text.afterFirst?_append_cons "section:".toList []
    (Text.joinWith ['/'] (parts.map String.toList) ++ '\'' :: rest) '/' ':' (by decide) (by simp)
    (by decide)
  have segments := @Text.afterFirst?_joinWith "section:".toList rest '\'' '/'
    (parts.map String.toList) (by simpa using nonempty) lacking (by decide) (by decide)
  rw [String.toList_append, Text.toList_joined, List.append_assoc]
  exact slash.trans segments

theorem WritesRegistration.stubLabel?_eq (written : WritesRegistration route line)
    (plain : HasPlainSegments route.path) : stubLabel? line = none := by
  obtain ⟨before, after, blankBefore, blankAfter, rfl⟩ := written.exists_pieces
  have call : ':' ∉ before ++ ("router.".toList ++ (route.method.lowerText.toList ++ ['('])) := by
    have method : ':' ∉ route.method.lowerText.toList :=
      not_mem_of_isToken (Section.isToken_lowerText _) (by decide)
    have blanks := not_mem_of_isBlank blankBefore (c := ':') (by decide)
    simp only [List.mem_append, not_or]
    exact ⟨blanks, by decide, method, by decide⟩
  have ending : ':' ∉ ", (req, res) => \x7b".toList ++ after := by
    have blanks := not_mem_of_isBlank blankAfter (c := ':') (by decide)
    simp only [List.mem_append, not_or]
    exact ⟨by decide, blanks⟩
  have search : Text.afterFirst? "section:".toList
      (before ++ ("router.".toList ++ (route.method.lowerText.toList ++ '(' ::
        ('\'' :: route.path.toList ++ '\'' :: (", (req, res) => \x7b".toList ++ after))))) =
      none := by
    calc
      _ = Text.afterFirst? "section:".toList
          ((before ++ ("router.".toList ++ (route.method.lowerText.toList ++ ['(']))) ++ '\'' ::
            (route.path.toList ++ '\'' :: (", (req, res) => \x7b".toList ++ after))) := by
        simp only [List.append_assoc, List.cons_append, List.nil_append]
      _ = Text.afterFirst? "section:".toList
          (route.path.toList ++ '\'' :: (", (req, res) => \x7b".toList ++ after)) :=
        Text.afterFirst?_append_cons (by decide) call (by decide)
      _ = Text.afterFirst? "section:".toList (", (req, res) => \x7b".toList ++ after) :=
        afterFirst?_section_path plain _
      _ = none := Text.afterFirst?_eq_none (by decide) ending
  rw [stubLabel?, labelled?, search]
  rfl

/-! ## Labels -/

theorem toList_labelText : (labelText key).toList =
    "res.json(\x7b section: ".toList ++ '\'' :: ((sectionName key).toList ++
      '\'' :: (", action: ".toList ++ '\'' :: (key.action.toList ++
        '\'' :: " \x7d);".toList))) := by
  have opening :
      "res.json(\x7b section: '".toList = "res.json(\x7b section: ".toList ++ ['\''] := by
    simp
  have between : "', action: '".toList = '\'' :: (", action: ".toList ++ ['\'']) := by simp
  have closing : "' \x7d);".toList = '\'' :: " \x7d);".toList := by simp
  unfold labelText
  simp only [String.toList_append, opening, between, closing, List.append_assoc, List.cons_append,
    List.nil_append]

/-- A written label, piece by piece. -/
theorem WritesLabel.exists_pieces (written : WritesLabel key line) :
    ∃ before after, (∀ c ∈ before, Text.isBlank c = true) ∧ (∀ c ∈ after, Text.isBlank c = true) ∧
      line = (before ++ "res.json(\x7b section: ".toList) ++ '\'' :: ((sectionName key).toList ++
        '\'' :: (", action: ".toList ++ '\'' :: (key.action.toList ++
          '\'' :: (" \x7d);".toList ++ after)))) := by
  obtain ⟨before, after, shape, blankBefore, blankAfter⟩ := Text.exists_of_trim line
  have call : Text.trim line = (labelText key).toList := written
  refine ⟨before, after, blankBefore, blankAfter, shape.trans ?_⟩
  rw [call, toList_labelText]
  simp only [List.append_assoc, List.cons_append]

theorem WritesLabel.registered?_eq (written : WritesLabel key line)
    (sectionToken : Name.IsToken (sectionName key)) (actionToken : Name.IsToken key.action) :
    registered? line = none := by
  obtain ⟨before, after, blankBefore, blankAfter, rfl⟩ := written.exists_pieces
  have call : 'u' ∉ before ++ "res.json(\x7b section: ".toList := by
    rw [List.mem_append, not_or]
    exact ⟨not_mem_of_isBlank blankBefore (by decide), by decide⟩
  have named : '.' ∉ (sectionName key).toList := not_mem_of_isToken sectionToken (by decide)
  have between : '.' ∉ ", action: ".toList := by decide
  have acted : '.' ∉ key.action.toList := not_mem_of_isToken actionToken (by decide)
  have ending : '.' ∉ " \x7d);".toList ++ after := by
    rw [List.mem_append, not_or]
    exact ⟨by decide, not_mem_of_isBlank blankAfter (by decide)⟩
  have foreign : '\'' ∉ "router.".toList := by decide
  rw [registered?, Text.afterFirst?_append_cons (by decide) call foreign,
    Text.afterFirst?_append_cons (by decide) named foreign,
    Text.afterFirst?_append_cons (by decide) between foreign,
    Text.afterFirst?_append_cons (by decide) acted foreign,
    Text.afterFirst?_eq_none (by decide) ending]
  rfl

theorem quotedText?_blank (text : List Char) : quotedText? (' ' :: text) = quotedText? text := rfl

/-- The quoted text behind a label and a blank. -/
theorem labelled?_eq_some {label : String} {body after : List Char}
    (found : Text.afterFirst? label.toList line = some (' ' :: ('\'' :: body ++ '\'' :: after)))
    (absent : '\'' ∉ body) : labelled? label line = some body := by
  rw [labelled?, found, Option.bind_some, quotedText?_blank]
  exact quotedText?_append absent

/-- The name of the section stands behind the first `section:` of a label. -/
theorem afterFirst?_section_label {before : List Char}
    (blankBefore : ∀ c ∈ before, Text.isBlank c = true) (name behind : List Char) :
    Text.afterFirst? "section:".toList
        ((before ++ "res.json(\x7b section: ".toList) ++ '\'' :: (name ++ '\'' :: behind)) =
      some (' ' :: ('\'' :: name ++ '\'' :: behind)) := by
  have blank : ∀ c ∈ [' '], Text.isBlank c = true := by
    intro c member
    rw [List.mem_singleton.mp member]
    rfl
  have call : 't' ∉ before ++ "res.json(".toList := by
    rw [List.mem_append, not_or]
    exact ⟨not_mem_of_isBlank blankBefore (by decide), by decide⟩
  have opening : "res.json(\x7b section: ".toList =
      "res.json(".toList ++ '\x7b' :: ' ' :: ("section:".toList ++ [' ']) := by simp
  calc
    _ = Text.afterFirst? "section:".toList ((before ++ "res.json(".toList) ++ '\x7b' ::
          ([' '] ++ ("section:".toList ++ ' ' :: ('\'' :: name ++ '\'' :: behind)))) := by
      simp only [opening, List.append_assoc, List.cons_append, List.nil_append]
    _ = Text.afterFirst? "section:".toList ([' '] ++ ("section:".toList ++
          ' ' :: ('\'' :: name ++ '\'' :: behind))) :=
      Text.afterFirst?_append_cons (by decide) call (by decide)
    _ = Text.afterFirst? "section:".toList ("section:".toList ++
          ' ' :: ('\'' :: name ++ '\'' :: behind)) :=
      Text.afterFirst?_append_of_isBlank rfl (by decide) blank _
    _ = _ := Text.afterFirst?_append_self (by decide)

/-- The name of the action stands behind the first `action:` of a label. -/
theorem afterFirst?_action_label {before name : List Char}
    (blankBefore : ∀ c ∈ before, Text.isBlank c = true) (named : ':' ∉ name)
    (action last : List Char) :
    Text.afterFirst? "action:".toList
        ((before ++ "res.json(\x7b section: ".toList) ++ '\'' :: (name ++ '\'' ::
          (", action: ".toList ++ '\'' :: (action ++ '\'' :: last)))) =
      some (' ' :: ('\'' :: action ++ '\'' :: last)) := by
  have call : 'a' ∉ before ++ "res.json(\x7b section: ".toList := by
    rw [List.mem_append, not_or]
    exact ⟨not_mem_of_isBlank blankBefore (by decide), by decide⟩
  have between : ", action: ".toList = [','] ++ ' ' :: ("action:".toList ++ [' ']) := by simp
  calc
    _ = Text.afterFirst? "action:".toList (name ++ '\'' ::
          (", action: ".toList ++ '\'' :: (action ++ '\'' :: last))) :=
      Text.afterFirst?_append_cons (by decide) call (by decide)
    _ = Text.afterFirst? "action:".toList
          (", action: ".toList ++ '\'' :: (action ++ '\'' :: last)) :=
      Text.afterFirst?_append_cons (by decide) named (by decide)
    _ = Text.afterFirst? "action:".toList ([','] ++ ' ' :: ("action:".toList ++
          ' ' :: ('\'' :: action ++ '\'' :: last))) := by
      simp only [between, List.append_assoc, List.cons_append, List.nil_append]
    _ = Text.afterFirst? "action:".toList ("action:".toList ++
          ' ' :: ('\'' :: action ++ '\'' :: last)) :=
      Text.afterFirst?_append_cons (d := 'a') (by decide) (by decide) (by decide)
    _ = _ := Text.afterFirst?_append_self (by decide)

theorem WritesLabel.stubLabel?_eq (written : WritesLabel key line)
    (sectionToken : Name.IsToken (sectionName key)) (actionToken : Name.IsToken key.action) :
    stubLabel? line = some ⟨sectionName key, key.action⟩ := by
  obtain ⟨before, after, blankBefore, blankAfter, rfl⟩ := written.exists_pieces
  have nameQuote : '\'' ∉ (sectionName key).toList := not_mem_of_isToken sectionToken (by decide)
  have actionQuote : '\'' ∉ key.action.toList := not_mem_of_isToken actionToken (by decide)
  have named : ':' ∉ (sectionName key).toList := not_mem_of_isToken sectionToken (by decide)
  rw [stubLabel?, labelled?_eq_some (afterFirst?_section_label blankBefore _ _) nameQuote,
    labelled?_eq_some (afterFirst?_action_label blankBefore named _ _) actionQuote]
  simp

/-! ## Calls without blanks around them -/

theorem writesRegistration_registrationText (route : Route) :
    WritesRegistration route (registrationText route).toList := by
  have shape : (registrationText route).toList =
      'r' :: ("outer.".toList ++ route.method.lowerText.toList ++ "('".toList ++
        route.path.toList ++ "', (req, res) => ".toList) ++ ['\x7b'] := by
    unfold registrationText
    simp
  unfold WritesRegistration
  apply Text.trim_eq_self
  · rw [shape]
    rintro c ⟨⟩
    decide
  · rw [shape, List.getLast?_concat]
    rintro c ⟨⟩
    decide

theorem writesLabel_labelText (key : HandlerKey) : WritesLabel key (labelText key).toList := by
  have shape : (labelText key).toList =
      'r' :: ("es.json(\x7b section: '".toList ++ (sectionName key).toList ++
        "', action: '".toList ++ key.action.toList ++ "' \x7d)".toList) ++ [';'] := by
    unfold labelText
    simp
  unfold WritesLabel
  apply Text.trim_eq_self
  · rw [shape]
    rintro c ⟨⟩
    decide
  · rw [shape, List.getLast?_concat]
    rintro c ⟨⟩
    decide

theorem newline_not_mem_registrationText (plain : HasPlainSegments route.path) :
    '\n' ∉ (registrationText route).toList := by
  have method : '\n' ∉ route.method.lowerText.toList :=
    not_mem_of_isToken (Section.isToken_lowerText _) (by decide)
  have path : '\n' ∉ route.path.toList := not_mem_of_hasPlainSegments plain (by decide)
  unfold registrationText
  simp only [String.toList_append, List.mem_append, not_or]
  exact ⟨⟨⟨⟨by decide, method⟩, by decide⟩, path⟩, by decide⟩

theorem newline_not_mem_labelText (sectionToken : Name.IsToken (sectionName key))
    (actionToken : Name.IsToken key.action) : '\n' ∉ (labelText key).toList := by
  have named : '\n' ∉ (sectionName key).toList := not_mem_of_isToken sectionToken (by decide)
  have acted : '\n' ∉ key.action.toList := not_mem_of_isToken actionToken (by decide)
  unfold labelText
  simp only [String.toList_append, List.mem_append, not_or]
  exact ⟨⟨⟨⟨by decide, named⟩, by decide⟩, acted⟩, by decide⟩

end Registration

end ModuleRoutes
