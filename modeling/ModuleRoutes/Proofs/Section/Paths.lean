import Mathlib.Data.List.NodupEquivFin
import ModuleRoutes.Proofs.Definition.Normalize
import ModuleRoutes.Proofs.Section.Conventions

/-!
# The paths of a section

The path of an action has up to three segments. In a normal form these are tokens, except for `:id`,
which stands second, after the noun of a resource, and only where an action addresses an item
through a path parameter (`ModuleRoutes.Section.pathShaped_pathAt`).
-/

namespace ModuleRoutes

namespace Section

/-- The segments of the path of an action of a resource. -/
def resourceParts (part : Section) (action : Action) : List String :=
  match Verb.ofText? action.name with
  | some verb =>
    if verb.needsId then
      if part.idStyle = .pathParam then [part.resourceName.getD "", ":id"]
      else [part.resourceName.getD "", verb.text]
    else [part.resourceName.getD ""]
  | none =>
    if action.needsId ∧ part.idStyle = .pathParam then
      [part.resourceName.getD "", ":id", action.name]
    else [part.resourceName.getD "", action.name]

/-- The segments of the path of the action at a place of a section. -/
def partsAt (part : Section) (index : Nat) (action : Action) : List String :=
  match part.kind.kind with
  | .dashboard => if index = 0 then ["dashboard"] else ["dashboard", action.name]
  | .resource => part.resourceParts action
  | .analytics => if index = 0 then ["analytics"] else ["analytics", action.name]
  | .settings => ["settings"]
  | .utilities => [action.name]

/-- A path of an action of a section: one to three segments, all of them tokens but for `:id`, which
is the second segment, right after the noun, of the paths of a resource's actions that address an
item by a path parameter, and is no segment of any other path. -/
def PathShaped (part : Section) (action : Action) (path : String) : Prop :=
  ∃ parts : List String, path = "/" ++ Text.joined "/" parts ∧ 1 ≤ parts.length ∧ parts.length ≤ 3 ∧
    (∀ segment ∈ parts, segment ≠ ":id" → Name.IsToken segment) ∧
    (∀ index, parts[index]? = some ":id" → index = 1 ∧ parts[0]? = part.resourceName) ∧
    (":id" ∈ parts ↔
      part.kind.isResource = true ∧ part.idStyle = .pathParam ∧ action.needsId = true)

variable {part : Section}

theorem joined_singleton (first : String) : Text.joined "/" [first] = first := by
  simp [Text.joined, Text.joinWith]

theorem joined_pair (first second : String) :
    Text.joined "/" [first, second] = first ++ "/" ++ second := by
  apply String.toList_injective
  simp [Text.joined, Text.joinWith]

theorem joined_triple (first second third : String) :
    Text.joined "/" [first, second, third] = first ++ "/" ++ second ++ "/" ++ third := by
  apply String.toList_injective
  simp [Text.joined, Text.joinWith]

/-- The verbs whose path is the one of their resource are those that address no item. -/
theorem verbPath_text (style : IdStyle) (base : String) (verb : Verb) :
    verbPath style base verb.text =
      if verb.needsId then if style = .pathParam then base ++ "/:id" else base ++ "/" ++ verb.text
      else base := by
  cases verb <;> cases style <;> rfl

theorem resourcePath_eq (action : Action) :
    part.resourcePath action = "/" ++ Text.joined "/" (part.resourceParts action) := by
  unfold resourcePath resourceParts
  cases Verb.ofText? action.name with
  | some verb =>
      simp only [verbPath_text]
      by_cases item : verb.needsId = true
      · rw [if_pos item, if_pos item]
        by_cases inPath : part.idStyle = .pathParam
        · rw [if_pos inPath, if_pos inPath, joined_pair]
          apply String.toList_injective
          simp
        · rw [if_neg inPath, if_neg inPath, joined_pair]
          apply String.toList_injective
          simp
      · rw [if_neg item, if_neg item, joined_singleton]
  | none =>
      simp only [customPath]
      by_cases item : action.needsId = true ∧ part.idStyle = .pathParam
      · rw [if_pos item, if_pos item, joined_triple]
        apply String.toList_injective
        simp
      · rw [if_neg item, if_neg item, joined_pair]
        apply String.toList_injective
        simp

theorem pathAt_eq (index : Nat) (action : Action) :
    part.pathAt index action = "/" ++ Text.joined "/" (part.partsAt index action) := by
  unfold pathAt partsAt
  cases part.kind.kind with
  | dashboard =>
      by_cases first : index = 0
      · simp only [if_pos first, joined_singleton]; decide
      · simp only [if_neg first, joined_pair, ← String.append_assoc]; rfl
  | resource => exact resourcePath_eq action
  | analytics =>
      by_cases first : index = 0
      · simp only [if_pos first, joined_singleton]; decide
      · simp only [if_neg first, joined_pair, ← String.append_assoc]; rfl
  | settings => simp only [joined_singleton]; decide
  | utilities => simp only [joined_singleton]

/-! ## The shape of paths -/

theorem ne_item_of_isToken {segment : String} (isToken : Name.IsToken segment) :
    segment ≠ ":id" := by
  rintro rfl
  exact absurd isToken (by decide)

/-- One to three tokens are the path of an action that addresses no item by a path parameter. -/
theorem pathShaped_of_tokens {action : Action} {parts : List String} (nonempty : 1 ≤ parts.length)
    (short : parts.length ≤ 3) (tokens : ∀ segment ∈ parts, Name.IsToken segment)
    (collective :
      ¬(part.kind.isResource = true ∧ part.idStyle = .pathParam ∧ action.needsId = true)) :
    part.PathShaped action ("/" ++ Text.joined "/" parts) := by
  refine ⟨parts, rfl, nonempty, short, fun segment member _ => tokens segment member, ?_, ?_⟩
  · intro index found
    exact absurd rfl (ne_item_of_isToken (tokens _ (List.mem_of_getElem? found)))
  · exact iff_of_false (fun member => ne_item_of_isToken (tokens _ member) rfl) collective

/-- The noun, the item and at most one token are the path of an action that addresses an item by a
path parameter. -/
theorem pathShaped_of_item {action : Action} {noun : String} {rest : List String}
    (named : part.resourceName = some noun) (isToken : Name.IsToken noun) (short : rest.length ≤ 1)
    (tokens : ∀ segment ∈ rest, Name.IsToken segment)
    (addressing : part.kind.isResource = true ∧ part.idStyle = .pathParam ∧ action.needsId = true) :
    part.PathShaped action ("/" ++ Text.joined "/" (noun :: ":id" :: rest)) := by
  have length : (noun :: ":id" :: rest).length ≤ 3 := by
    rw [List.length_cons, List.length_cons]
    omega
  refine ⟨_, rfl, by simp, length, ?_, ?_, iff_of_true (by simp) addressing⟩
  · intro segment member other
    rcases List.mem_cons.mp member with rfl | later
    · exact isToken
    · rcases List.mem_cons.mp later with rfl | inRest
      · exact absurd rfl other
      · exact tokens segment inRest
  · intro index found
    match index with
    | 0 => exact absurd (Option.some.inj found) (ne_item_of_isToken isToken)
    | 1 => exact ⟨rfl, named.symm⟩
    | index + 2 => exact absurd rfl (ne_item_of_isToken (tokens _ (List.mem_of_getElem? found)))

theorem isToken_verb (verb : Verb) : Name.IsToken verb.text := by cases verb <;> decide

theorem isToken_kind (kind : Kind) : Name.IsToken kind.text := by cases kind <;> decide

theorem isToken_lowerText (method : Method) : Name.IsToken method.lowerText := by
  unfold Name.IsToken Method.lowerText
  rw [String.toList_map]
  cases method <;> decide

/-- The paths of a resource whose verbs address what they should. -/
theorem pathShaped_resourcePath {action : Action} {noun : String}
    (resource : part.kind.isResource = true) (named : part.resourceName = some noun)
    (isToken : Name.IsToken noun) (actionToken : Name.IsToken action.name)
    (addressed : ∀ verb : Verb, action.name = verb.text → action.needsId = verb.needsId) :
    part.PathShaped action (part.resourcePath action) := by
  rw [resourcePath_eq]
  unfold resourceParts
  rw [named, Option.getD_some]
  cases spelled : Verb.ofText? action.name with
  | some verb =>
      have needs := addressed verb (Verb.ofText?_eq_some_iff.mp spelled)
      dsimp only
      by_cases item : verb.needsId = true
      · rw [if_pos item]
        by_cases style : part.idStyle = .pathParam
        · rw [if_pos style]
          exact pathShaped_of_item named isToken (by simp) (by simp)
            ⟨resource, style, needs.trans item⟩
        · rw [if_neg style]
          refine pathShaped_of_tokens (by simp) (by simp) ?_ fun addressing => style addressing.2.1
          simpa using ⟨isToken, isToken_verb verb⟩
      · rw [if_neg item]
        refine pathShaped_of_tokens (by simp) (by simp) (by simpa using isToken) ?_
        intro addressing
        exact item (needs.symm.trans addressing.2.2)
  | none =>
      dsimp only
      by_cases item : action.needsId = true ∧ part.idStyle = .pathParam
      · rw [if_pos item]
        exact pathShaped_of_item named isToken (by simp) (by simpa using actionToken)
          ⟨resource, item.2, item.1⟩
      · rw [if_neg item]
        refine pathShaped_of_tokens (by simp) (by simp) (by simpa using ⟨isToken, actionToken⟩) ?_
        exact fun addressing => item ⟨addressing.2.2, addressing.2.1⟩

theorem pathShaped_anchored {action : Action} {root : String} (plain : part.kind.isResource = false)
    (rootToken : Name.IsToken root) (actionToken : Name.IsToken action.name) (index : Nat) :
    part.PathShaped action
      ("/" ++ Text.joined "/" (if index = 0 then [root] else [root, action.name])) := by
  have collective : ¬(part.kind.isResource = true ∧ part.idStyle = .pathParam ∧
      action.needsId = true) := by simp [plain]
  by_cases first : index = 0
  · rw [if_pos first]
    exact pathShaped_of_tokens (by simp) (by simp) (by simpa using rootToken) collective
  · rw [if_neg first]
    exact pathShaped_of_tokens (by simp) (by simp) (by simpa using ⟨rootToken, actionToken⟩)
      collective

/-- The paths of a section in normal form that keeps the conventions have their shape. -/
theorem pathShaped_pathAt (keeps : part.Conventional) (normal : part.IsNormal)
    (named : part.kind.isResource = true → part.resourceName.isSome) {action : Action}
    (member : action ∈ part.actions) (index : Nat) :
    part.PathShaped action (part.pathAt index action) := by
  have actionToken := normal.names action member
  rw [pathAt_eq, partsAt]
  cases kind : part.kind.kind with
  | dashboard =>
      exact pathShaped_anchored (by simp [Slot.isResource, kind]) (by decide) actionToken index
  | resource =>
      have resource : part.kind.isResource = true := by simp [Slot.isResource, kind]
      obtain ⟨noun, given⟩ := Option.isSome_iff_exists.mp (named resource)
      have rule := keeps.kindRule
      rw [KindRule, kind] at rule
      rw [← resourcePath_eq]
      exact pathShaped_resourcePath resource given (normal.noun noun given) actionToken
        fun verb same => (rule action member verb same).2
  | analytics =>
      exact pathShaped_anchored (by simp [Slot.isResource, kind]) (by decide) actionToken index
  | settings =>
      have token : Name.IsToken "settings" := by decide
      refine pathShaped_of_tokens (by simp) (by simp) (by simpa using token) ?_
      simp [Slot.isResource, kind]
  | utilities =>
      refine pathShaped_of_tokens (by simp) (by simp) (by simpa using actionToken) ?_
      simp [Slot.isResource, kind]

end Section

theorem slash_not_mem_segment {segment : String} (plain : segment ≠ ":id" → Name.IsToken segment) :
    '/' ∉ segment.toList := by
  by_cases item : segment = ":id"
  · subst item
    decide
  · exact (plain item).slash_not_mem

/-- The segments of a path that is made of tokens and items are what it is made of. -/
theorem segments_of_tokens {parts : List String} (nonempty : parts ≠ [])
    (tokens : ∀ segment ∈ parts, segment ≠ ":id" → Name.IsToken segment) :
    Text.segments '/' ("/" ++ Text.joined "/" parts) = parts := by
  refine Text.segments_path (fun part member => slash_not_mem_segment (tokens part member)) ?_
    nonempty
  rintro part member rfl
  exact (tokens "" member (by decide)).toList_ne_nil rfl

/-- A path that is made of its segments, which are tokens but for an item, and where an item stands,
it stands second. -/
structure IsRoutePath (path : String) : Prop where
  spelled : path = "/" ++ Text.joined "/" (Text.segments '/' path)
  nonempty : Text.segments '/' path ≠ []
  tokens : ∀ segment ∈ Text.segments '/' path, segment ≠ ":id" → Name.IsToken segment
  second : ∀ index, (Text.segments '/' path)[index]? = some ":id" → index = 1

theorem IsRoutePath.count_item_le {path : String} (routePath : IsRoutePath path) :
    (Text.segments '/' path).count ":id" ≤ 1 := by
  -- An item is the second segment of a path, and no path has two second segments.
  by_contra many
  obtain ⟨first, second, before, atFirst, atSecond⟩ :=
    List.duplicate_iff_exists_distinct_get.mp
      (List.duplicate_iff_two_le_count.mpr (Nat.lt_of_not_le many))
  have firstPlace := routePath.second first
    (List.getElem?_eq_some_iff.mpr ⟨first.isLt, atFirst.symm⟩)
  have secondPlace := routePath.second second
    (List.getElem?_eq_some_iff.mpr ⟨second.isLt, atSecond.symm⟩)
  exact before.ne (Fin.ext (firstPlace.trans secondPlace.symm))

theorem Section.PathShaped.isRoutePath {part : Section} {action : Action} {path : String}
    (shaped : part.PathShaped action path) : IsRoutePath path := by
  obtain ⟨parts, rfl, nonempty, -, tokens, second, -⟩ := shaped
  have occupied := List.ne_nil_of_length_pos nonempty
  have segments := segments_of_tokens occupied tokens
  exact
    { spelled := by rw [segments]
      nonempty := by rwa [segments]
      tokens := by rwa [segments]
      second := by
        rw [segments]
        exact fun index found => (second index found).1 }

theorem Section.PathShaped.item_mem_segments_iff {part : Section} {action : Action} {path : String}
    (shaped : part.PathShaped action path) :
    ":id" ∈ Text.segments '/' path ↔
      part.kind.isResource = true ∧ part.idStyle = .pathParam ∧ action.needsId = true := by
  obtain ⟨parts, rfl, nonempty, -, tokens, -, item⟩ := shaped
  rwa [segments_of_tokens (List.ne_nil_of_length_pos nonempty) tokens]

/-- A path whose segments are tokens, but for `:id`. -/
def HasPlainSegments (path : String) : Prop :=
  ∃ parts : List String, path = "/" ++ Text.joined "/" parts ∧ parts ≠ [] ∧
    ∀ segment ∈ parts, segment ≠ ":id" → Name.IsToken segment

/-- The characters of a path are separators of segments and of words, the mark of an item, and lower
case letters and digits. -/
theorem HasPlainSegments.mem_toList {path : String} (plain : HasPlainSegments path) {c : Char}
    (member : c ∈ path.toList) : c = '/' ∨ c = ':' ∨ c = '-' ∨ Name.isTokenChar c = true := by
  obtain ⟨parts, rfl, _, tokens⟩ := plain
  rw [String.toList_append, List.mem_append] at member
  rcases member with slash | inside
  · exact Or.inl (List.mem_singleton.mp slash)
  · rw [Text.toList_joined] at inside
    rcases Text.mem_joinWith inside with slash | ⟨_, inParts, inSegment⟩
    · exact Or.inl (List.mem_singleton.mp slash)
    · obtain ⟨segment, isPart, rfl⟩ := List.mem_map.mp inParts
      by_cases item : segment = ":id"
      · subst item
        rw [String.toList_ofList, List.mem_cons, List.mem_cons, List.mem_singleton] at inSegment
        rcases inSegment with rfl | rfl | rfl <;> decide
      · exact Or.inr (Or.inr ((tokens segment isPart item).mem_toList inSegment))

theorem Section.PathShaped.hasPlainSegments {part : Section} {action : Action} {path : String}
    (shaped : part.PathShaped action path) : HasPlainSegments path := by
  obtain ⟨parts, same, nonempty, _, tokens, _, _⟩ := shaped
  exact ⟨parts, same, List.ne_nil_of_length_pos nonempty, tokens⟩

end ModuleRoutes
