import ModuleRoutes.Proofs.Http.Braces
import ModuleRoutes.Proofs.Section.Paths

/-!
# Patterns of module paths

The paths that modules are served on have tokens for segments and at most one item. A router stores
each of them as a pattern of literals with one parameter
(`ModuleRoutes.Http.exists_isStored_bracedPath`), and two such patterns are in conflict only when
the paths are the same (`ModuleRoutes.Http.IsStored.path_eq_of_conflicts`).
-/

namespace ModuleRoutes

/-- A path below the root whose segments are tokens but for at most one item. -/
def IsModulePath (path : String) : Prop :=
  ∃ parts : List String, path = "/" ++ Text.joined "/" parts ∧ parts ≠ [] ∧
    (∀ segment ∈ parts, segment ≠ ":id" → Name.IsToken segment) ∧ parts.count ":id" ≤ 1

/-- The path of a module holds no braces. -/
theorem IsModulePath.brace_not_mem {path : String} (modulePath : IsModulePath path) :
    '\x7b' ∉ path.toList := by
  obtain ⟨parts, same, nonempty, tokens, -⟩ := modulePath
  have plain : HasPlainSegments path := ⟨parts, same, nonempty, tokens⟩
  exact fun brace => absurd (plain.mem_toList brace) (by decide)

/-- The path of a module is made of its segments. -/
theorem IsModulePath.spelled {path : String} (modulePath : IsModulePath path) :
    path = "/" ++ Text.joined "/" (Text.segments '/' path) ∧ Text.segments '/' path ≠ [] ∧
      (∀ segment ∈ Text.segments '/' path, segment ≠ ":id" → Name.IsToken segment) ∧
      (Text.segments '/' path).count ":id" ≤ 1 := by
  obtain ⟨parts, rfl, nonempty, tokens, single⟩ := modulePath
  rw [segments_of_tokens nonempty tokens]
  exact ⟨rfl, nonempty, tokens, single⟩

theorem IsModulePath.segments_append {mount path : String} (mounted : IsModulePath mount)
    (modulePath : IsModulePath path) :
    Text.segments '/' (mount ++ path) = Text.segments '/' mount ++ Text.segments '/' path := by
  obtain ⟨front, rfl, frontNonempty, frontTokens, -⟩ := mounted
  obtain ⟨parts, rfl, nonempty, tokens, -⟩ := modulePath
  rw [Text.path_append frontNonempty nonempty, segments_of_tokens frontNonempty frontTokens,
    segments_of_tokens nonempty tokens]
  exact segments_of_tokens (List.append_ne_nil_of_left_ne_nil frontNonempty parts)
    fun part member => (List.mem_append.mp member).elim (frontTokens part) (tokens part)

namespace Http

/-! ## Patterns -/

/-- The characters that a piece is read from. -/
def Piece.chars : Piece → List Char
  | .literal c => [c]
  | .parameter name => '\x7b' :: name ++ ['\x7d']
  | .remainder name => '\x7b' :: '*' :: name ++ ['\x7d']

/-- A literal or the parameter of an item. -/
def Piece.IsPlain : Piece → Prop
  | .literal _ => True
  | .parameter name => name = ['i', 'd']
  | .remainder _ => False

/-- Where every parameter has the same name, patterns are in conflict only with themselves. -/
theorem Pattern.eq_of_conflicts {left right : Pattern} (leftPlain : ∀ piece ∈ left, piece.IsPlain)
    (rightPlain : ∀ piece ∈ right, piece.IsPlain) (conflict : left.conflicts right = true) :
    left = right := by
  induction left generalizing right with
  | nil =>
    cases right with
    | nil => rfl
    | cons piece right => simp [Pattern.conflicts] at conflict
  | cons piece left ih =>
    obtain ⟨plain, leftRest⟩ := List.forall_mem_cons.mp leftPlain
    cases right with
    | nil => cases piece <;> simp [Pattern.conflicts] at conflict
    | cons other right =>
      obtain ⟨otherPlain, rightRest⟩ := List.forall_mem_cons.mp rightPlain
      cases piece with
      | literal c =>
        cases other with
        | literal d =>
          simp only [Pattern.conflicts, Bool.and_eq_true, decide_eq_true_eq] at conflict
          rw [conflict.1, ih leftRest rightRest conflict.2]
        | parameter name => simp [Pattern.conflicts] at conflict
        | remainder name => exact otherPlain.elim
      | parameter name =>
        cases other with
        | literal d => simp [Pattern.conflicts] at conflict
        | parameter otherName =>
          rw [Pattern.conflicts] at conflict
          obtain rfl : name = otherName := Eq.trans plain (Eq.symm otherPlain)
          rw [ih leftRest rightRest conflict]
        | remainder name => exact otherPlain.elim
      | remainder name => exact plain.elim

/-! ## Reading patterns -/

/-- The pieces that a text is read as. -/
def read? (text : List Char) : Option Pattern := piecesOf? (unescape text)

theorem read?_nil : read? [] = some [] := by
  simp [read?, unescape, piecesOf?]

theorem Pattern.ofPath?_eq_some {path : String} {pattern : Pattern}
    (reads : read? path.toList = some pattern)
    (few : pattern.countP Piece.isParameter ≤ parameterLimit) : ofPath? path = some pattern := by
  rw [read?] at reads
  rw [ofPath?, reads]
  exact Option.filter_some_pos (by simpa using few)

theorem unescape_cons {c : Char} {text : List Char}
    (single : ∀ rest, text = c :: rest → c ≠ '\x7b' ∧ c ≠ '\x7d') :
    unescape (c :: text) = (c, false) :: unescape text := by
  rw [unescape]
  · rintro rest rfl rfl
    exact (single rest rfl).1 rfl
  · rintro rest rfl rfl
    exact (single rest rfl).2 rfl

theorem read?_literal {c : Char} (noBrace : c ≠ '\x7b' ∧ c ≠ '\x7d') (text : List Char) :
    read? (c :: text) = (read? text).map (.literal c :: ·) := by
  rw [read?, unescape_cons fun _ _ => noBrace, read?]
  cases unescape text with
  | nil => simp [piecesOf?, noBrace]
  | cons head rest =>
    obtain ⟨first, marked⟩ := head
    rw [piecesOf?]
    simp [noBrace]

theorem read?_literals {segment : List Char}
    (noBrace : ∀ c ∈ segment, c ≠ '\x7b' ∧ c ≠ '\x7d') (text : List Char) :
    read? (segment ++ text) = (read? text).map (segment.map .literal ++ ·) := by
  induction segment with
  | nil => simp
  | cons c segment ih =>
    obtain ⟨head, rest⟩ := List.forall_mem_cons.mp noBrace
    rw [List.cons_append, read?_literal head, ih rest, Option.map_map]
    rfl

/-- An item in braces is read as a parameter when its segment ends there. -/
theorem read?_item {text : List Char} (ended : text = [] ∨ ∃ rest, text = '/' :: rest) :
    read? ('\x7b' :: 'i' :: 'd' :: '\x7d' :: text) =
      (read? text).map (.parameter ['i', 'd'] :: ·) := by
  have marked : unescape ('\x7b' :: 'i' :: 'd' :: '\x7d' :: text) =
      ('\x7b', false) :: ('i', false) :: ('d', false) :: ('\x7d', false) :: unescape text := by
    rcases ended with rfl | ⟨rest, rfl⟩ <;> simp [unescape]
  have separated : (unescape text).head?.all (fun next => next.1 = '/') = true := by
    rcases ended with rfl | ⟨rest, rfl⟩ <;> simp [unescape]
  have named : nameRest? (('d', false) :: ('\x7d', false) :: unescape text) =
      some (['d'], unescape text) := by
    simp [nameRest?]
  rw [read?, marked, piecesOf?.eq_3, if_neg (by decide), if_pos (by decide), if_neg (by decide)]
  split
  case h_1 none => rw [named] at none; cases none
  case h_2 name after found =>
    rw [named] at found
    cases found
    rw [if_neg (by decide), if_pos separated]
    rfl

/-! ## Paths of modules -/

/-- The pieces of a segment. -/
def segmentPieces (segment : String) : Pattern :=
  if segment = ":id" then [.parameter ['i', 'd']] else segment.toList.map .literal

/-- The pattern of the path with some segments. -/
def segmentsPattern (parts : List String) : Pattern :=
  parts.flatMap fun segment => .literal '/' :: segmentPieces segment

theorem splitOn_path {parts : List String} (nonempty : parts ≠ [])
    (free : ∀ part ∈ parts, '/' ∉ part.toList) :
    Text.splitOn '/' ("/" ++ Text.joined "/" parts).toList = [] :: parts.map String.toList := by
  rw [String.toList_append, Text.toList_joined]
  exact congrArg ([] :: ·)
    (Text.splitOn_joinWith (List.forall_mem_map.mpr free) (by simpa using nonempty))

theorem toList_bracedPath {parts : List String} (nonempty : parts ≠ [])
    (free : ∀ part ∈ parts, '/' ∉ part.toList) :
    (bracedPath ("/" ++ Text.joined "/" parts)).toList =
      parts.flatMap fun part => '/' :: bracedSegment part.toList := by
  obtain ⟨first, others, rfl⟩ := List.exists_cons_of_ne_nil nonempty
  rw [bracedPath, String.toList_ofList, splitOn_path nonempty free, List.map_cons,
    List.map_map]
  exact Text.cons_joinWith_map '/' _ nonempty

theorem bracedSegment_of_isToken {token : String} (isToken : Name.IsToken token) :
    bracedSegment token.toList = token.toList := by
  cases letters : token.toList with
  | nil => rfl
  | cons c rest =>
    have noColon : c ≠ ':' := by
      rintro rfl
      have colon := isToken.mem_toList (letters ▸ List.mem_cons_self)
      exact absurd colon (by decide)
    exact bracedSegment_of_ne noColon rest

theorem bracedSegment_ne_nil {segment : String} (plain : segment ≠ ":id" → Name.IsToken segment) :
    bracedSegment segment.toList ≠ [] := by
  by_cases item : segment = ":id"
  · subst item
    decide
  · rw [bracedSegment_of_isToken (plain item)]
    exact (plain item).toList_ne_nil

/-- The path of a module starts with a slash and goes on. -/
theorem exists_toList_bracedPath {path : String} (modulePath : IsModulePath path) :
    ∃ chars, (bracedPath path).toList = '/' :: chars ∧ chars ≠ [] := by
  obtain ⟨parts, rfl, nonempty, tokens, -⟩ := modulePath
  rw [toList_bracedPath nonempty fun part member => slash_not_mem_segment (tokens part member)]
  obtain ⟨first, others, rfl⟩ := List.exists_cons_of_ne_nil nonempty
  refine ⟨_, rfl, fun nothing => ?_⟩
  exact bracedSegment_ne_nil (tokens first List.mem_cons_self) (List.append_eq_nil_iff.mp nothing).1

/-- The path of a module holds no dot. -/
theorem dot_not_mem_bracedPath {path : String} (modulePath : IsModulePath path) :
    '.' ∉ (bracedPath path).toList := by
  obtain ⟨parts, rfl, nonempty, tokens, -⟩ := modulePath
  rw [toList_bracedPath nonempty fun part member => slash_not_mem_segment (tokens part member)]
  intro dot
  obtain ⟨part, member, inPart⟩ := List.mem_flatMap.mp dot
  by_cases item : part = ":id"
  · subst item
    exact absurd inPart (by decide)
  · rw [bracedSegment_of_isToken (tokens part member item), List.mem_cons] at inPart
    rcases inPart with slash | inToken
    · cases slash
    · exact absurd ((tokens part member item).mem_toList inToken) (by decide)

theorem read?_segment {segment : String} (isToken : segment ≠ ":id" → Name.IsToken segment)
    {text : List Char} (ended : text = [] ∨ ∃ rest, text = '/' :: rest) :
    read? ('/' :: bracedSegment segment.toList ++ text) =
      (read? text).map (.literal '/' :: segmentPieces segment ++ ·) := by
  rw [List.cons_append, read?_literal (by decide)]
  by_cases item : segment = ":id"
  · subst item
    have braced : bracedSegment ":id".toList = ['\x7b', 'i', 'd', '\x7d'] := by decide
    rw [braced, segmentPieces, if_pos rfl]
    refine (congrArg _ (read?_item ended)).trans ?_
    rw [Option.map_map]
    rfl
  · have noBrace : ∀ c ∈ segment.toList, c ≠ '\x7b' ∧ c ≠ '\x7d' := by
      intro c member
      have plain := (isToken item).mem_toList member
      constructor <;> rintro rfl <;> exact absurd plain (by decide)
    rw [bracedSegment_of_isToken (isToken item), read?_literals noBrace, segmentPieces,
      if_neg item, Option.map_map]
    rfl

/-- The path with some segments is read segment by segment. -/
theorem read?_segments {parts : List String}
    (tokens : ∀ segment ∈ parts, segment ≠ ":id" → Name.IsToken segment) :
    read? (parts.flatMap fun part => '/' :: bracedSegment part.toList) =
      some (segmentsPattern parts) := by
  induction parts with
  | nil => exact read?_nil
  | cons part parts ih =>
    obtain ⟨first, rest⟩ := List.forall_mem_cons.mp tokens
    have ended : (parts.flatMap fun part => '/' :: bracedSegment part.toList) = [] ∨
        ∃ rest, (parts.flatMap fun part => '/' :: bracedSegment part.toList) =
          '/' :: rest := by
      cases parts with
      | nil => exact .inl rfl
      | cons next parts => exact .inr ⟨_, rfl⟩
    rw [List.flatMap_cons, read?_segment first ended, ih rest, Option.map_some]
    rfl

/-! ## Stored paths -/

/-- A path with the pattern that a router stores for it, which tells what the path is. -/
structure IsStored (path : String) (pattern : Pattern) : Prop where
  allowed : pathAllowed path = true
  read : Pattern.ofPath? path = some pattern
  plain : ∀ piece ∈ pattern, piece.IsPlain
  chars : pattern.flatMap Piece.chars = path.toList

theorem IsStored.path_eq_of_conflicts {path other : String} {pattern otherPattern : Pattern}
    (stored : IsStored path pattern) (otherStored : IsStored other otherPattern)
    (conflict : otherPattern.conflicts pattern = true) : other = path := by
  apply String.toList_injective
  rw [← stored.chars, ← otherStored.chars,
    Pattern.eq_of_conflicts otherStored.plain stored.plain conflict]

theorem countP_segmentsPattern (parts : List String) :
    (segmentsPattern parts).countP Piece.isParameter = parts.count ":id" := by
  induction parts with
  | nil => rfl
  | cons part parts ih =>
    have split : segmentsPattern (part :: parts) =
        .literal '/' :: (segmentPieces part ++ segmentsPattern parts) := rfl
    rw [split, List.countP_cons_of_neg (by decide), List.countP_append, ih, List.count_cons,
      segmentPieces]
    by_cases item : part = ":id"
    · simp [item, Piece.isParameter, Nat.add_comm]
    · simp [item, List.countP_map, Function.comp_def, Piece.isParameter]

theorem isPlain_of_mem_segmentsPattern {parts : List String} {piece : Piece}
    (member : piece ∈ segmentsPattern parts) : piece.IsPlain := by
  obtain ⟨segment, _, inSegment⟩ := List.mem_flatMap.mp member
  rcases List.mem_cons.mp inSegment with rfl | inPieces
  · trivial
  · unfold segmentPieces at inPieces
    split at inPieces
    · rw [List.mem_singleton.mp inPieces]
      rfl
    · obtain ⟨c, _, rfl⟩ := List.mem_map.mp inPieces
      trivial

theorem flatMap_chars_segmentsPattern {parts : List String}
    (tokens : ∀ segment ∈ parts, segment ≠ ":id" → Name.IsToken segment) :
    (segmentsPattern parts).flatMap Piece.chars =
      parts.flatMap fun part => '/' :: bracedSegment part.toList := by
  rw [segmentsPattern, List.flatMap_assoc]
  refine List.flatMap_congr fun segment member => ?_
  rw [List.flatMap_cons, segmentPieces]
  by_cases item : segment = ":id"
  · subst item
    decide
  · rw [if_neg item, bracedSegment_of_isToken (tokens segment member item), List.flatMap_map]
    simp [Piece.chars]

/-- No segment of the path of a module begins with a colon or a star. -/
theorem pathAllowed_bracedPath {parts : List String} (nonempty : parts ≠ [])
    (tokens : ∀ segment ∈ parts, segment ≠ ":id" → Name.IsToken segment) :
    pathAllowed (bracedPath ("/" ++ Text.joined "/" parts)) = true := by
  have free : ∀ part ∈ parts, '/' ∉ part.toList :=
    fun part member => slash_not_mem_segment (tokens part member)
  have starts : (bracedPath ("/" ++ Text.joined "/" parts)).toList.head? = some '/' := by
    rw [toList_bracedPath nonempty free]
    obtain ⟨first, others, rfl⟩ := List.exists_cons_of_ne_nil nonempty
    rfl
  have plain : ∀ segment ∈ parts, ∀ c, c = ':' ∨ c = '*' →
      (bracedSegment segment.toList).head? ≠ some c := by
    intro segment member c mark first
    by_cases item : segment = ":id"
    · subst item
      have brace : (bracedSegment ":id".toList).head? = some '\x7b' := by decide
      rw [brace] at first
      cases first
      exact absurd mark (by decide)
    · rw [bracedSegment_of_isToken (tokens segment member item)] at first
      have inToken := (tokens segment member item).mem_toList (List.mem_of_head? first)
      rcases mark with rfl | rfl <;> exact absurd inToken (by decide)
  rw [pathAllowed, starts, segmentsAllowed, Text.pieces, splitOn_toList_bracedPath,
    splitOn_path nonempty free, List.map_cons, List.map_cons, List.all_cons, Bool.and_eq_true,
    Bool.and_eq_true, List.all_eq_true]
  refine ⟨rfl, rfl, ?_⟩
  simp only [List.map_map, List.mem_map, Function.comp_apply]
  rintro _ ⟨segment, member, rfl⟩
  rw [String.toList_ofList]
  split
  case h_1 colon => exact absurd (congrArg List.head? colon) (plain segment member _ (.inl rfl))
  case h_2 star => exact absurd (congrArg List.head? star) (plain segment member _ (.inr rfl))
  case h_3 => rfl

/-- The path of a module is read as the pattern of its segments. -/
theorem ofPath?_bracedPath {parts : List String} (nonempty : parts ≠ [])
    (tokens : ∀ segment ∈ parts, segment ≠ ":id" → Name.IsToken segment)
    (single : parts.count ":id" ≤ 1) :
    Pattern.ofPath? (bracedPath ("/" ++ Text.joined "/" parts)) =
      some (segmentsPattern parts) := by
  have text := toList_bracedPath nonempty fun part member =>
    slash_not_mem_segment (tokens part member)
  have few : (segmentsPattern parts).countP Piece.isParameter ≤ parameterLimit := by
    rw [countP_segmentsPattern]
    exact single.trans (by decide)
  exact Pattern.ofPath?_eq_some (text ▸ read?_segments tokens) few

/-- A router stores the path of a module. -/
theorem exists_isStored_bracedPath {path : String} (modulePath : IsModulePath path) :
    ∃ pattern, IsStored (bracedPath path) pattern := by
  obtain ⟨parts, rfl, nonempty, tokens, single⟩ := modulePath
  have text := toList_bracedPath nonempty fun part member =>
    slash_not_mem_segment (tokens part member)
  refine ⟨segmentsPattern parts, pathAllowed_bracedPath nonempty tokens,
    ofPath?_bracedPath nonempty tokens single, fun _ => isPlain_of_mem_segmentsPattern, ?_⟩
  rw [text, flatMap_chars_segmentsPattern tokens]

end Http

end ModuleRoutes
