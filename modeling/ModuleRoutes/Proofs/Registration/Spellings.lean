import ModuleRoutes.Proofs.Registration.Cuts
import ModuleRoutes.Proofs.Registration.Keys
import ModuleRoutes.Proofs.Registration.Line

/-!
# Names in paths and in labels

A path can name its action in its last segment, and a label can name the same action in the same
spelling. The label is read as the token of the name. Below a resource the segment is too, so that
both give one key; below a dashboard, below analytics and for utilities the segment is taken as it
is written, and both give one key only if the name is spelled as its token
(`ModuleRoutes.Registration.extract_spelled`,
`ModuleRoutes.Registration.topSellers_has_two_keys`).
-/

namespace ModuleRoutes

namespace Name

/-- Only blanks and slashes are stripped off the spelling of a name. -/
theorem mem_strip {raw : List Char} {c : Char} (member : c ∈ raw)
    (solid : Text.isBlank c = false) (unslashed : c ≠ '/') : c ∈ strip raw := by
  obtain ⟨before, after, shape, blankBefore, blankAfter⟩ := Text.exists_of_trim raw
  obtain ⟨slashes, trimmed, onlySlashes⟩ :=
    Text.exists_of_dropEndWhile (· = '/') (Text.trim raw)
  rw [shape, trimmed, List.mem_append, List.mem_append, List.mem_append] at member
  rcases member with (inBefore | inStrip | inSlashes) | inAfter
  · rw [blankBefore c inBefore] at solid
    cases solid
  · exact inStrip
  · exact absurd (of_decide_eq_true (onlySlashes c inSlashes)) unslashed
  · rw [blankAfter c inAfter] at solid
    cases solid

theorem Normalizes.isNameChar {raw : String} (normalizes : Normalizes raw) {c : Char}
    (member : c ∈ raw.toList) (solid : Text.isBlank c = false) (unslashed : c ≠ '/') :
    isNameChar c = true := by
  obtain ⟨token, spelled⟩ := normalizes
  exact (normalize_eq_ok_iff.mp spelled).1 c (mem_strip member solid unslashed)

theorem Normalizes.ne_empty {raw : String} (normalizes : Normalizes raw) : raw ≠ "" := by
  rintro rfl
  obtain ⟨token, spelled⟩ := normalizes
  cases spelled

end Name

namespace Registration

/-- The sections whose paths name actions as they are written. -/
def verbatimSections : List String := ["dashboard", "analytics", "utilities"]

namespace Vocabulary

/-- A path that names an action in its last segment, with the section that a label names there. -/
inductive NamesOn (words : Vocabulary) (name : String) : String → String → Prop
  | dashboard : NamesOn words name "dashboard" ("/dashboard/" ++ name)
  | analytics : NamesOn words name "analytics" ("/analytics/" ++ name)
  | resource {noun : String} (declared : noun ∈ words.nouns)
      (apart : noun ∉ ["dashboard", "analytics", "settings", "utilities"]) :
      NamesOn words name noun ("/" ++ noun ++ "/" ++ name)
  | utility (apart : name ∉ ["dashboard", "analytics", "settings", "utilities"])
      (undeclared : name ∉ words.nouns) : NamesOn words name "utilities" ("/" ++ name)

variable {words : Vocabulary} {name token part path : String}

theorem not_isPathParameter_of_normalizes (normalizes : Name.Normalizes name) :
    isPathParameter name = false := by
  rw [isPathParameter, decide_eq_false_iff_not]
  intro colon
  have allowed := normalizes.isNameChar (List.mem_of_head? colon) (by decide) (by decide)
  exact absurd allowed (by decide)

/-- A label is read by the tokens of its section and of its action. -/
theorem keyOfLabel?_of_normalize {partToken : String}
    (partSpelled : Name.normalize part = .ok partToken) (spelled : Name.normalize name = .ok token)
    (method : Method) :
    words.keyOfLabel? method ⟨part, name⟩ = words.keyOfLabel? method ⟨partToken, token⟩ := by
  rw [keyOfLabel?, keyOfLabel?, partSpelled, spelled,
    Name.normalize_eq_self_iff.mpr (Name.isToken_of_normalize partSpelled),
    Name.normalize_eq_self_iff.mpr (Name.isToken_of_normalize spelled)]

theorem segments_pair (first : String) (filled : first ≠ "") (free : '/' ∉ first.toList)
    (normalizes : Name.Normalizes name) (segment : '/' ∉ name.toList) :
    Text.segments '/' ("/" ++ first ++ "/" ++ name) = [first, name] := by
  have segments : Text.segments '/' ("/" ++ Text.joined "/" [first, name]) = [first, name] :=
    Text.segments_path (by simp [free, segment]) (by simp [filled, normalizes.ne_empty])
      (List.cons_ne_nil _ _)
  rwa [Section.joined_pair, ← String.append_assoc, ← String.append_assoc] at segments

theorem segments_single (normalizes : Name.Normalizes name) (segment : '/' ∉ name.toList) :
    Text.segments '/' ("/" ++ name) = [name] := by
  have segments : Text.segments '/' ("/" ++ Text.joined "/" [name]) = [name] :=
    Text.segments_path (by simp [segment]) (by simp [normalizes.ne_empty]) (List.cons_ne_nil _ _)
  rwa [Section.joined_singleton] at segments

/-- Below a resource, a segment in any spelling names the action of its token. -/
theorem keyBelowNoun?_of_normalize (spelled : Name.normalize name = .ok token) (method : Method)
    (noun : String) :
    words.keyBelowNoun? method noun [name] = some (words.nounKey noun token) := by
  have named : words.spelledKey? noun name = some (words.nounKey noun token) := by
    rw [spelledKey?, spelled]
    rfl
  rw [keyBelowNoun?, not_isPathParameter_of_normalizes ⟨token, spelled⟩]
  by_cases detail : name = "detail"
  · rw [detail] at named ⊢
    exact named
  · simp only [Bool.false_eq_true, if_false, if_neg detail]
    exact named

/-- A label that names a section other than a resource or settings by its kind, and an action in any
spelling. -/
theorem keyOfLabel?_plain (words : Vocabulary) (kind : Kind)
    (spelled : Name.normalize name = .ok token) (plain : kind ≠ .resource)
    (unset : kind ≠ .settings) (method : Method) :
    words.keyOfLabel? method ⟨kind.text, name⟩ = some (words.plainKey kind token) := by
  have kindToken := Name.normalize_eq_self_iff.mpr (Section.isToken_kind kind)
  rw [keyOfLabel?_of_normalize kindToken spelled,
    keyOfLabel?_kind (Name.isToken_of_normalize spelled) plain, if_neg unset]

/-- A path that is read with the action as it is written has the key of the label but for it. -/
theorem keys_of_keyOfPath?_plain (kind : Kind) (spelled : Name.normalize name = .ok token)
    (plain : kind ≠ .resource) (unset : kind ≠ .settings)
    (read : words.keyOfPath? method path = some (words.plainKey kind name)) :
    ∃ key, key.action = token ∧ words.keyOfLabel? method ⟨kind.text, name⟩ = some key ∧
      words.keyOfPath? method path = some { key with action := name } :=
  ⟨words.plainKey kind token, rfl, keyOfLabel?_plain words kind spelled plain unset method, read⟩

/-- Where a path names an action, a label with this name gives the key of its token, and the path
gives the same key, but for an action that is taken as it is written. -/
theorem keys_of_namesOn (tokens : ∀ noun ∈ words.nouns, Name.IsToken noun)
    (spelled : Name.normalize name = .ok token) (segment : '/' ∉ name.toList)
    (names : words.NamesOn name part path) (method : Method) :
    ∃ key, key.action = token ∧ words.keyOfLabel? method ⟨part, name⟩ = some key ∧
      words.keyOfPath? method path =
        some { key with action := if part ∈ verbatimSections then name else token } := by
  have normalizes : Name.Normalizes name := ⟨token, spelled⟩
  cases names with
  | dashboard =>
      have spelledOut : "/dashboard/" ++ name = "/" ++ "dashboard" ++ "/" ++ name :=
        congrArg (· ++ name) (by decide)
      have segments := segments_pair "dashboard" (by decide) (by decide) normalizes segment
      rw [if_pos (by decide), spelledOut]
      exact keys_of_keyOfPath?_plain .dashboard spelled (by decide) (by decide)
        (@keyOfPath?_dashboard words method _ name 1 segments (absurd · Nat.one_ne_zero))
  | analytics =>
      have spelledOut : "/analytics/" ++ name = "/" ++ "analytics" ++ "/" ++ name :=
        congrArg (· ++ name) (by decide)
      have segments := segments_pair "analytics" (by decide) (by decide) normalizes segment
      rw [if_pos (by decide), spelledOut]
      exact keys_of_keyOfPath?_plain .analytics spelled (by decide) (by decide)
        (@keyOfPath?_analytics words method _ name 1 segments (absurd · Nat.one_ne_zero))
  | resource declared apart =>
      have nounToken := tokens part declared
      have unrooted : part ∉ ["dashboard", "analytics", "settings"] :=
        fun rooted => apart (List.mem_append_left ["utilities"] rooted)
      have plain : ∀ word ∈ verbatimSections,
          word ∈ ["dashboard", "analytics", "settings", "utilities"] := by decide
      have resolved : part ∉ verbatimSections := fun verbatim => apart (plain part verbatim)
      have filled : part ≠ "" := fun empty => nounToken.toList_ne_nil (by rw [empty]; rfl)
      have segments := segments_pair part filled nounToken.slash_not_mem normalizes segment
      refine ⟨words.nounKey part token, rfl, ?_, ?_⟩
      · rw [keyOfLabel?_of_normalize (Name.normalize_eq_self_iff.mpr nounToken) spelled,
          keyOfLabel?_noun nounToken (Name.isToken_of_normalize spelled) apart]
      · rw [keyOfPath?_of_segments segments unrooted, if_pos declared,
          keyBelowNoun?_of_normalize spelled, if_neg resolved]
        rfl
  | utility apart undeclared =>
      have unrooted : name ∉ ["dashboard", "analytics", "settings"] :=
        fun rooted => apart (List.mem_append_left ["utilities"] rooted)
      rw [if_pos (by decide)]
      refine keys_of_keyOfPath?_plain .utilities spelled (by decide) (by decide) ?_
      rw [keyOfPath?_of_segments (segments_single normalizes segment) unrooted, if_neg undeclared,
        utilityKey?, not_isPathParameter_of_normalizes normalizes]
      rfl

end Vocabulary

/-- A source with a registration of a method on a path between other lines, in a block whose first
label is the given one. -/
def RegistersOn (source : String) (method : Method) (path : String) (label : Option StubLabel)
    (before after : List (List Char)) : Prop :=
  ∃ line raw, Text.lines source = before ++ line :: after ∧ registered? line = some (method, raw) ∧
    cleanPath raw = path ∧ (blockLines line after).findSome? stubLabel? = label

variable {definition normal : Definition} {name token part path source : String} {method : Method}
  {label : Option StubLabel} {before after : List (List Char)} {key : HandlerKey}

/-- The key of a registration: that of its label, or else that of its path. -/
def Vocabulary.keyFor? (words : Vocabulary) (method : Method) (path : String) :
    Option StubLabel → Option HandlerKey
  | some label => words.keyOfLabel? method label
  | none => words.keyOfPath? method path

/-- The route of a registration stands between those of the lines before and after it. -/
theorem RegistersOn.extract_eq (registers : RegistersOn source method path label before after)
    (found : (Vocabulary.ofDefinition definition).keyFor? method path label = some key) :
    extract source definition =
      routesOf definition before ++ ⟨path, method, key, none⟩ :: routesOf definition after := by
  obtain ⟨line, raw, lines, opens, rfl, rfl⟩ := registers
  have route : Pending.route? (Vocabulary.ofDefinition definition)
      ⟨method, raw, (blockLines line after).findSome? stubLabel?⟩ =
        some ⟨cleanPath raw, method, key, none⟩ := by
    have mapped := congrArg (Option.map fun key => Route.mk (cleanPath raw) method key none) found
    cases named : (blockLines line after).findSome? stubLabel? <;> rw [named] at mapped <;>
      exact mapped
  rw [extract, lines, routesOf_append definition opens,
    routesOf_cons_of_registered definition opens, route]
  rfl

/-- **Spellings.** Where a path names an action whose name has a token, a registration on it has a
route with and without a label, whatever else the source registers. A label with this name gives the
key of the token. The path gives the same key exactly if it is below a resource or the name is its
own token: otherwise its key has the action as it is written. -/
theorem extract_spelled (normalized : definition.normalize = .ok normal)
    (spelled : Name.normalize name = .ok token) (segment : '/' ∉ name.toList)
    (names : (Vocabulary.ofDefinition definition).NamesOn name part path) (method : Method) :
    ∃ byPath byLabel : HandlerKey,
      (∀ source before after, RegistersOn source method path none before after →
        extract source definition =
          routesOf definition before ++ ⟨path, method, byPath, none⟩ ::
            routesOf definition after) ∧
      (∀ source before after, RegistersOn source method path (some ⟨part, name⟩) before after →
        extract source definition =
          routesOf definition before ++ ⟨path, method, byLabel, none⟩ ::
            routesOf definition after) ∧
      byLabel.action = token ∧
      byPath = { byLabel with action := if part ∈ verbatimSections then name else token } ∧
      (byPath = byLabel ↔ (part ∈ verbatimSections → Name.IsToken name)) := by
  have tokens : ∀ noun ∈ (Vocabulary.ofDefinition definition).nouns, Name.IsToken noun := by
    intro noun declared
    rw [Vocabulary.nouns_of_normalize normalized, List.mem_filterMap] at declared
    obtain ⟨other, member, named⟩ := declared
    exact ((Definition.tokens_of_normalize normalized).2 other member).noun noun named
  obtain ⟨byLabel, action, label, path⟩ :=
    Vocabulary.keys_of_namesOn tokens spelled segment names method
  refine ⟨_, byLabel, fun _ _ _ registers => registers.extract_eq path,
    fun _ _ _ registers => registers.extract_eq label, action, rfl, ?_⟩
  by_cases verbatim : part ∈ verbatimSections
  · -- The key of the path has the name for its action, and that of the label the token.
    rw [if_pos verbatim, ← Name.normalize_eq_self_iff, spelled, Except.ok.injEq, ← action]
    constructor
    · intro same _
      rw [← same]
    · intro own
      rw [← own verbatim]
  · rw [if_neg verbatim, ← action]
    exact iff_of_true rfl fun inside => absurd inside verbatim

/-- A registration below the dashboard whose path names the action in camel case. -/
def topSellers : String :=
  "router.get('/dashboard/topSellers', send);"

/-- The same registration with a label that names the action in the same spelling. -/
def topSellersLabelled : String :=
  "router.get('/dashboard/topSellers', reply(" ++
    "\x7b section: 'dashboard', action: 'topSellers' \x7d));"

theorem normalize_sellers :
    (Definition.template "seo-optimizer" "listings" "keywords" "audits").normalize =
      .ok (Definition.template "seo-optimizer" "listings" "keywords" "audits") := by
  decide +kernel

theorem topSellers_registers :
    RegistersOn topSellers .get "/dashboard/topSellers" none [] [] ∧
      RegistersOn topSellersLabelled .get "/dashboard/topSellers"
        (some ⟨"dashboard", "topSellers"⟩) [] [] :=
  ⟨⟨topSellers.toList, "/dashboard/topSellers".toList, by decide +kernel⟩,
    topSellersLabelled.toList, "/dashboard/topSellers".toList, by decide +kernel⟩

theorem extract_spelled_topSellers :
    (Definition.template "seo-optimizer" "listings" "keywords" "audits").normalize =
      .ok (Definition.template "seo-optimizer" "listings" "keywords" "audits") ∧
    Name.normalize "topSellers" = .ok "top-sellers" ∧
    '/' ∉ "topSellers".toList ∧
    (Vocabulary.ofDefinition
      (Definition.template "seo-optimizer" "listings" "keywords" "audits")).NamesOn "topSellers"
        "dashboard" "/dashboard/topSellers" ∧
    ∃ byPath byLabel : HandlerKey,
      extract topSellers (Definition.template "seo-optimizer" "listings" "keywords" "audits") =
        [⟨"/dashboard/topSellers", .get, byPath, none⟩] ∧
      extract topSellersLabelled
          (Definition.template "seo-optimizer" "listings" "keywords" "audits") =
        [⟨"/dashboard/topSellers", .get, byLabel, none⟩] ∧
      byLabel.action = "top-sellers" ∧ byPath = { byLabel with action := "topSellers" } ∧
      byPath ≠ byLabel := by
  have spelled : Name.normalize "topSellers" = .ok "top-sellers" := by decide +kernel
  have names : (Vocabulary.ofDefinition
      (Definition.template "seo-optimizer" "listings" "keywords" "audits")).NamesOn
        "topSellers" "dashboard" ("/dashboard/" ++ "topSellers") := .dashboard
  have below : "/dashboard/" ++ "topSellers" = "/dashboard/topSellers" := by decide
  rw [below] at names
  obtain ⟨byPath, byLabel, unlabelled, labelled, action, path, same⟩ :=
    extract_spelled normalize_sellers spelled (by decide) names .get
  refine ⟨normalize_sellers, spelled, by decide, names, byPath, byLabel,
    unlabelled _ _ _ topSellers_registers.1, labelled _ _ _ topSellers_registers.2, action,
    path, fun equal => ?_⟩
  have own := same.mp equal (by decide)
  rw [← Name.normalize_eq_self_iff, spelled] at own
  exact absurd own (by decide)

/-- Without a label the key has the action as the path spells it, and with a label its token. -/
theorem topSellers_has_two_keys :
    (Definition.template "seo-optimizer" "listings" "keywords" "audits").normalize =
        .ok (Definition.template "seo-optimizer" "listings" "keywords" "audits") ∧
      Name.normalize "topSellers" = .ok "top-sellers" ∧
      RegistersOn topSellers .get "/dashboard/topSellers" none [] [] ∧
      RegistersOn topSellersLabelled .get "/dashboard/topSellers"
        (some ⟨"dashboard", "topSellers"⟩) [] [] ∧
      extract topSellers (Definition.template "seo-optimizer" "listings" "keywords" "audits") =
        [⟨"/dashboard/topSellers", .get, ⟨"seo-optimizer", .dashboard, none, "topSellers"⟩,
          none⟩] ∧
      extract topSellersLabelled
          (Definition.template "seo-optimizer" "listings" "keywords" "audits") =
        [⟨"/dashboard/topSellers", .get, ⟨"seo-optimizer", .dashboard, none, "top-sellers"⟩,
          none⟩] :=
  ⟨normalize_sellers, by decide +kernel, topSellers_registers.1, topSellers_registers.2,
    by decide +kernel, by decide +kernel⟩

end Registration

end ModuleRoutes
