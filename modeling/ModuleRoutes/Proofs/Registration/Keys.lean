import ModuleRoutes.Proofs.Compiler.Layout
import ModuleRoutes.Registration.Vocabulary

/-!
# Keys that labels and paths suggest

The key of an observed route is found without the table that the route may come from, from a label
or from the shape of the path. For a route that a section lays out both find the key that the
section gave it, if the noun of a resource is no name of another section and the name of a utility
is no first segment of another path (`ModuleRoutes.Registration.Vocabulary.keyOfLabel?_route`,
`ModuleRoutes.Registration.Vocabulary.keyOfPath?_route`).
-/

namespace ModuleRoutes

namespace Section

variable {part : Section} {action : Action}

theorem mem_resourceParts {segment : String} (member : segment ∈ part.resourceParts action) :
    segment = ":id" ∨ segment = part.resourceName.getD "" ∨ segment = action.name ∨
      ∃ verb : Verb, segment = verb.text := by
  unfold resourceParts at member
  cases spelled : Verb.ofText? action.name with
  | some verb =>
      simp only [spelled] at member
      split at member
      · split at member <;> simp only [List.mem_cons, List.not_mem_nil, or_false] at member
        · rcases member with noun | item
          · exact Or.inr (Or.inl noun)
          · exact Or.inl item
        · rcases member with noun | named
          · exact Or.inr (Or.inl noun)
          · exact Or.inr (Or.inr (Or.inr ⟨verb, named⟩))
      · exact Or.inr (Or.inl (List.mem_singleton.mp member))
  | none =>
      simp only [spelled] at member
      split at member <;> simp only [List.mem_cons, List.not_mem_nil, or_false] at member
      · rcases member with noun | item | named
        · exact Or.inr (Or.inl noun)
        · exact Or.inl item
        · exact Or.inr (Or.inr (Or.inl named))
      · rcases member with noun | named
        · exact Or.inr (Or.inl noun)
        · exact Or.inr (Or.inr (Or.inl named))

/-- The segments of the paths of a section in normal form are tokens, but for `:id`. -/
theorem item_or_isToken_of_mem_partsAt (normal : part.IsNormal)
    (named : part.kind.isResource = true → part.resourceName.isSome)
    (member : action ∈ part.actions)
    {index : Nat} {segment : String} (inParts : segment ∈ part.partsAt index action) :
    segment = ":id" ∨ Name.IsToken segment := by
  have actionToken := normal.names action member
  have anchored : ∀ root : String, Name.IsToken root →
      segment ∈ (if index = 0 then [root] else [root, action.name]) → Name.IsToken segment := by
    intro root rootToken inAnchored
    split at inAnchored
    · exact List.mem_singleton.mp inAnchored ▸ rootToken
    · rcases List.mem_pair.mp inAnchored with rfl | rfl
      · exact rootToken
      · exact actionToken
  unfold partsAt at inParts
  cases kind : part.kind.kind with
  | resource =>
      rw [kind] at inParts
      obtain ⟨noun, given⟩ := Option.isSome_iff_exists.mp
        (named (by simp [Slot.isResource, kind]))
      rcases mem_resourceParts inParts with item | rfl | rfl | ⟨verb, rfl⟩
      · exact Or.inl item
      · rw [given, Option.getD_some]
        exact Or.inr (normal.noun noun given)
      · exact Or.inr actionToken
      · exact Or.inr (isToken_verb verb)
  | dashboard =>
      rw [kind] at inParts
      exact Or.inr (anchored "dashboard" (by decide) inParts)
  | analytics =>
      rw [kind] at inParts
      exact Or.inr (anchored "analytics" (by decide) inParts)
  | settings =>
      rw [kind] at inParts
      exact Or.inr (List.mem_singleton.mp inParts ▸ (by decide))
  | utilities =>
      rw [kind] at inParts
      exact Or.inr (List.mem_singleton.mp inParts ▸ actionToken)

theorem partsAt_ne_nil (index : Nat) : part.partsAt index action ≠ [] := by
  unfold partsAt resourceParts
  repeat' split
  all_goals exact List.cons_ne_nil _ _

/-- The segments of a path are those that it is made of. -/
theorem segments_pathAt (normal : part.IsNormal)
    (named : part.kind.isResource = true → part.resourceName.isSome)
    (member : action ∈ part.actions)
    (index : Nat) : Text.segments '/' (part.pathAt index action) = part.partsAt index action := by
  rw [pathAt_eq]
  refine segments_of_tokens (partsAt_ne_nil index) fun segment inParts other => ?_
  exact (item_or_isToken_of_mem_partsAt normal named member inParts).resolve_left other

theorem tableOrder_of_not_resource (kind : part.kind.kind ≠ .resource) :
    part.tableOrder = part.actions := by
  rw [tableOrder, if_neg (by simp [Slot.isResource, kind])]

end Section

/-- A kind that is none of resources belongs to one slot. -/
theorem Slot.eq_of_kind_eq {slot other : Slot} (same : slot.kind = other.kind)
    (plain : slot.kind ≠ .resource) : slot = other := by
  by_contra different
  have resource := isResource_of_kind_eq different same
  rw [isResource, decide_eq_true_eq] at resource
  exact plain resource

namespace Registration

namespace Vocabulary

variable {words : Vocabulary} {method : Method} {path noun : String} {rest : List String}

/-! ## Keys from labels -/

theorem keyOfLabel?_isSome_iff {label : StubLabel} :
    (words.keyOfLabel? method label).isSome ↔
      Name.Normalizes label.part ∧ Name.Normalizes label.action := by
  unfold keyOfLabel? Name.Normalizes
  cases Name.normalize label.part with
  | error fault => simp [Except.toOption]
  | ok part =>
      cases Name.normalize label.action with
      | error fault => simp [Except.toOption]
      | ok action => simp [Except.toOption]

/-- A label that names a section other than a resource by its kind. -/
theorem keyOfLabel?_kind {kind : Kind} {action : String} (isToken : Name.IsToken action)
    (plain : kind ≠ .resource) : words.keyOfLabel? method ⟨kind.text, action⟩ =
      some (if kind = .settings then words.settingsKey method action
        else words.plainKey kind action) := by
  rw [keyOfLabel?, Name.normalize_eq_self_iff.mpr (Section.isToken_kind kind),
    Name.normalize_eq_self_iff.mpr isToken]
  cases kind with
  | resource => exact absurd rfl plain
  | dashboard => rfl
  | analytics => rfl
  | settings => rfl
  | utilities => rfl

theorem keyOfLabel?_noun {action : String} (nounToken : Name.IsToken noun)
    (isToken : Name.IsToken action)
    (apart : noun ∉ ["dashboard", "analytics", "settings", "utilities"]) :
    words.keyOfLabel? method ⟨noun, action⟩ = some (words.nounKey noun action) := by
  rw [keyOfLabel?, Name.normalize_eq_self_iff.mpr nounToken,
    Name.normalize_eq_self_iff.mpr isToken]
  simp only [Except.toOption, Option.bind_eq_bind, Option.bind_some]
  split <;> simp_all

/-! ## Keys from paths -/

theorem spelledKey?_of_isToken (words : Vocabulary) {action : String}
    (isToken : Name.IsToken action) (noun : String) :
    words.spelledKey? noun action = some (words.nounKey noun action) := by
  rw [spelledKey?, Name.normalize_eq_self_iff.mpr isToken]
  rfl

theorem not_isPathParameter_of_isToken {segment : String} (isToken : Name.IsToken segment) :
    isPathParameter segment = false := by
  rw [isPathParameter, decide_eq_false_iff_not]
  intro colon
  rcases isToken.mem_toList (List.mem_of_head? colon) with hyphen | letter
  · exact absurd hyphen (by decide)
  · exact absurd letter (by decide)

/-- Below a first segment that is no root path, only the nouns matter. -/
theorem keyOfPath?_of_segments (segments : Text.segments '/' path = noun :: rest)
    (apart : noun ∉ ["dashboard", "analytics", "settings"]) :
    words.keyOfPath? method path =
      if noun ∈ words.nouns then words.keyBelowNoun? method noun rest
      else words.utilityKey? (noun :: rest) := by
  unfold keyOfPath?
  rw [segments]
  split <;> simp_all

/-- A root path stands for the first action of its section, a path below it for the action named. -/
theorem keyOfPath?_dashboard {action : String} {index : Nat}
    (segments : Text.segments '/' path =
      if index = 0 then ["dashboard"] else ["dashboard", action])
    (root : index = 0 → words.dashboardRoot = action) :
    words.keyOfPath? method path = some (words.plainKey .dashboard action) := by
  unfold keyOfPath?
  by_cases first : index = 0
  · rw [segments, if_pos first, ← root first]
    rfl
  · rw [segments, if_neg first]
    rfl

theorem keyOfPath?_analytics {action : String} {index : Nat}
    (segments : Text.segments '/' path =
      if index = 0 then ["analytics"] else ["analytics", action])
    (root : index = 0 → words.analyticsRoot = action) :
    words.keyOfPath? method path = some (words.plainKey .analytics action) := by
  unfold keyOfPath?
  by_cases first : index = 0
  · rw [segments, if_pos first, ← root first]
    rfl
  · rw [segments, if_neg first]
    rfl

theorem keyOfPath?_settings (segments : Text.segments '/' path = ["settings"]) :
    words.keyOfPath? method path = some (words.settingsKey method method.lowerText) := by
  unfold keyOfPath?
  rw [segments]
  rfl

theorem keyOfPath?_utility {action : String} (segments : Text.segments '/' path = [action])
    (isToken : Name.IsToken action) (apart : action ∉ ["dashboard", "analytics", "settings"])
    (undeclared : action ∉ words.nouns) :
    words.keyOfPath? method path = some (words.plainKey .utilities action) := by
  rw [keyOfPath?_of_segments segments apart, if_neg undeclared, utilityKey?,
    not_isPathParameter_of_isToken isToken]
  rfl

/-- A verb is found again from the method and what its path has behind the noun. -/
theorem keyBelowNoun?_verb (verb : Verb) (style : IdStyle) (noun : String) :
    words.keyBelowNoun? verb.method noun
        (if verb.needsId then if style = .pathParam then [":id"] else [verb.text] else []) =
      some (words.nounKey noun verb.text) := by
  have spelled := spelledKey?_of_isToken words (Section.isToken_verb verb) noun
  cases verb <;> cases style <;> exact spelled

theorem keyBelowNoun?_resourceParts (words : Vocabulary) {part : Section} {action : Action}
    (actionToken : Name.IsToken action.name)
    (shaped : ∀ verb : Verb, action.name = verb.text → action.method = verb.method)
    (named : part.resourceName = some noun) :
    ∃ rest, part.resourceParts action = noun :: rest ∧
      words.keyBelowNoun? action.method noun rest = some (words.nounKey noun action.name) := by
  have spelled := spelledKey?_of_isToken words actionToken noun
  unfold Section.resourceParts
  rw [named, Option.getD_some]
  cases verbal : Verb.ofText? action.name with
  | some verb =>
      have name := Verb.ofText?_eq_some_iff.mp verbal
      rw [shaped verb name, name]
      refine ⟨_, ?_, keyBelowNoun?_verb verb part.idStyle noun⟩
      dsimp only
      split
      · split <;> rfl
      · rfl
  | none =>
      by_cases item : action.needsId = true ∧ part.idStyle = .pathParam
      · refine ⟨[":id", action.name], by simp [item], ?_⟩
        exact spelled
      · refine ⟨[action.name], by simp [item], ?_⟩
        rw [keyBelowNoun?, not_isPathParameter_of_isToken actionToken]
        by_cases detail : action.name = "detail"
        · rw [detail] at spelled ⊢
          exact spelled
        · simp only [Bool.false_eq_true, if_false, if_neg detail]
          exact spelled

/-- Of the two declared settings, `GET` stands for the first and `PUT` for the second. -/
theorem settingsKey_of_declared {index : Nat} {name : String}
    (declared : words.settings[index]? = some name)
    (paired : [Method.get, .put][index]? = some method) (otherwise : String) :
    words.settingsKey method otherwise = words.plainKey .settings name := by
  match index with
  | 0 =>
      obtain rfl : Method.get = method := Option.some.inj paired
      rw [settingsKey, declared]
      rfl
  | 1 =>
      obtain rfl : Method.put = method := Option.some.inj paired
      rw [settingsKey, declared]
      rfl
  | index + 2 => cases paired

/-! ## Keys of a layout -/

section Layout

variable {definition normal : Definition} {part : Section} {action : Action} {index : Nat}

theorem nouns_of_normalize (normalized : definition.normalize = .ok normal) :
    (ofDefinition definition).nouns = normal.sections.filterMap Section.resourceName := by
  rw [ofDefinition, normalized]

theorem plainKey_of_normalize (normalized : definition.normalize = .ok normal) (kind : Kind)
    (action : String) :
    (ofDefinition definition).plainKey kind action = ⟨normal.moduleId, kind, none, action⟩ := by
  rw [ofDefinition, normalized]
  rfl

theorem nounKey_of_normalize (normalized : definition.normalize = .ok normal)
    (noun action : String) : (ofDefinition definition).nounKey noun action =
      ⟨normal.moduleId, .resource, some noun, action⟩ := by
  rw [ofDefinition, normalized]
  rfl

/-- The action that is laid out first in a section of no resource is the one that the path of the
section stands for. -/
theorem rootAction_of_placed (filled : normal.SlotsFilled) (inSections : part ∈ normal.sections)
    (plain : part.kind.kind ≠ .resource) (placed : part.tableOrder[0]? = some action) (slot : Slot)
    (inSlot : part.kind.kind = slot.kind) (otherwise : String) :
    rootAction normal slot otherwise = action.name := by
  have found : normal.findSection? slot = some part :=
    filled.findSection?_eq_some_iff.mpr ⟨inSections, Slot.eq_of_kind_eq inSlot plain⟩
  rw [Section.tableOrder_of_not_resource plain] at placed
  rw [rootAction, found, Option.bind_some, List.head?_eq_getElem?, placed]

theorem settings_of_normalize (normalized : definition.normalize = .ok normal)
    (found : normal.findSection? .settings = some part) :
    (ofDefinition definition).settings = part.actions.map Action.name := by
  rw [ofDefinition, normalized]
  simp only [found]

theorem resourceName_eq_none (filled : normal.SlotsFilled) (inSections : part ∈ normal.sections)
    (kind : part.kind.kind ≠ .resource) : part.resourceName = none := by
  have noun := filled.nouns part inSections
  rw [Slot.isResource, decide_eq_false kind] at noun
  exact Option.isSome_eq_false_iff.mp noun |> Option.isNone_iff_eq_none.mp

theorem settingsKey_route (normalized : definition.normalize = .ok normal)
    (filled : normal.SlotsFilled) (inSections : part ∈ normal.sections)
    (keeps : part.Conventional) (kind : part.kind.kind = .settings)
    (placed : part.tableOrder[index]? = some action) (otherwise : String) :
    (ofDefinition definition).settingsKey action.method otherwise =
      ⟨normal.moduleId, .settings, none, action.name⟩ := by
  have plain : part.kind.kind ≠ .resource := by simp [kind]
  have slot : part.kind = .settings := Slot.eq_of_kind_eq kind plain
  have found := filled.findSection?_eq_some_iff.mpr ⟨inSections, slot⟩
  have rule := keeps.kindRule
  unfold Section.KindRule at rule
  rw [kind] at rule
  rw [Section.tableOrder_of_not_resource plain] at placed
  have declared : (ofDefinition definition).settings[index]? = some action.name := by
    rw [settings_of_normalize normalized found, List.getElem?_map, placed, Option.map_some]
  have paired : [Method.get, .put][index]? = some action.method := by
    rw [← rule.1, List.getElem?_map, placed, Option.map_some]
  rw [settingsKey_of_declared declared paired, plainKey_of_normalize normalized]

/-- The key that the label of a route names is the key of the route. -/
theorem keyOfLabel?_route (normalized : definition.normalize = .ok normal)
    (filled : normal.SlotsFilled) (inSections : part ∈ normal.sections)
    (keeps : part.Conventional) (placed : part.tableOrder[index]? = some action)
    (nounApart : ∀ noun, part.resourceName = some noun →
      noun ∉ ["dashboard", "analytics", "settings", "utilities"]) :
    (ofDefinition definition).keyOfLabel? action.method
        ⟨part.resourceName.getD part.kind.kind.text, action.name⟩ =
      some ⟨normal.moduleId, part.kind.kind, part.resourceName, action.name⟩ := by
  have member : action ∈ part.actions :=
    (Section.tableOrder_perm keeps.distinctNames).mem_iff.mp (List.mem_of_getElem? placed)
  have isNormal := (Definition.tokens_of_normalize normalized).2 part inSections
  have actionToken := isNormal.names action member
  by_cases kind : part.kind.kind = .resource
  · have resource : part.kind.isResource = true := by simp [Slot.isResource, kind]
    obtain ⟨noun, named⟩ := Option.isSome_iff_exists.mp (filled.noun_isSome inSections resource)
    rw [named, Option.getD_some, keyOfLabel?_noun (isNormal.noun noun named) actionToken
      (nounApart noun named), nounKey_of_normalize normalized, kind]
  · rw [resourceName_eq_none filled inSections kind, Option.getD_none,
      keyOfLabel?_kind actionToken kind]
    by_cases settings : part.kind.kind = .settings
    · rw [if_pos settings, settingsKey_route normalized filled inSections keeps settings placed,
        settings]
    · rw [if_neg settings, plainKey_of_normalize normalized]

/-- The key that the path of a route of a resource suggests is the key of the route. -/
theorem keyOfPath?_resourceRoute (normalized : definition.normalize = .ok normal)
    (inSections : part ∈ normal.sections) (named : part.resourceName = some noun)
    (shaped : ∀ verb : Verb, action.name = verb.text → action.method = verb.method)
    (actionToken : Name.IsToken action.name)
    (segments : Text.segments '/' path = part.resourceParts action)
    (nounApart : noun ∉ ["dashboard", "analytics", "settings"]) :
    (ofDefinition definition).keyOfPath? action.method path =
      some ⟨normal.moduleId, .resource, some noun, action.name⟩ := by
  obtain ⟨rest, parts, found⟩ :=
    keyBelowNoun?_resourceParts (ofDefinition definition) actionToken shaped named
  have declared : noun ∈ (ofDefinition definition).nouns := by
    rw [nouns_of_normalize normalized]
    exact List.mem_filterMap.mpr ⟨part, inSections, named⟩
  rw [keyOfPath?_of_segments (segments.trans parts) nounApart, if_pos declared, found,
    nounKey_of_normalize normalized]

/-- The key that the path of a route suggests is the key of the route. -/
theorem keyOfPath?_route (normalized : definition.normalize = .ok normal)
    (filled : normal.SlotsFilled) (inSections : part ∈ normal.sections)
    (keeps : part.Conventional) (placed : part.tableOrder[index]? = some action)
    (nounApart : ∀ noun, part.resourceName = some noun →
      noun ∉ ["dashboard", "analytics", "settings"])
    (utilityApart : part.kind = .utilities → action.name ∉ ["dashboard", "analytics", "settings"] ∧
      action.name ∉ (ofDefinition definition).nouns) :
    (ofDefinition definition).keyOfPath? action.method (part.pathAt index action) =
      some ⟨normal.moduleId, part.kind.kind, part.resourceName, action.name⟩ := by
  have member : action ∈ part.actions :=
    (Section.tableOrder_perm keeps.distinctNames).mem_iff.mp (List.mem_of_getElem? placed)
  have isNormal := (Definition.tokens_of_normalize normalized).2 part inSections
  have segments := Section.segments_pathAt isNormal (filled.noun_isSome inSections) member index
  have rule := keeps.kindRule
  unfold Section.KindRule at rule
  unfold Section.partsAt at segments
  cases kind : part.kind.kind with
  | resource =>
      rw [kind] at rule segments
      have resource : part.kind.isResource = true := by simp [Slot.isResource, kind]
      obtain ⟨noun, named⟩ := Option.isSome_iff_exists.mp (filled.noun_isSome inSections resource)
      rw [keyOfPath?_resourceRoute normalized inSections named
        (fun verb name => (rule action member verb name).1) (isNormal.names action member) segments
        (nounApart noun named), named]
  | dashboard =>
      rw [kind] at segments
      have plain : part.kind.kind ≠ .resource := by simp [kind]
      have root : index = 0 → (ofDefinition definition).dashboardRoot = action.name := by
        rintro rfl
        rw [ofDefinition, normalized]
        exact rootAction_of_placed filled inSections plain placed .dashboard kind _
      rw [keyOfPath?_dashboard segments root, plainKey_of_normalize normalized,
        resourceName_eq_none filled inSections plain]
  | analytics =>
      rw [kind] at segments
      have plain : part.kind.kind ≠ .resource := by simp [kind]
      have root : index = 0 → (ofDefinition definition).analyticsRoot = action.name := by
        rintro rfl
        rw [ofDefinition, normalized]
        exact rootAction_of_placed filled inSections plain placed .analytics kind _
      rw [keyOfPath?_analytics segments root, plainKey_of_normalize normalized,
        resourceName_eq_none filled inSections plain]
  | settings =>
      rw [kind] at segments
      have plain : part.kind.kind ≠ .resource := by simp [kind]
      rw [keyOfPath?_settings segments, settingsKey_route normalized filled inSections keeps kind
        placed, resourceName_eq_none filled inSections plain]
  | utilities =>
      rw [kind] at segments
      have plain : part.kind.kind ≠ .resource := by simp [kind]
      have slot : part.kind = .utilities := Slot.eq_of_kind_eq kind plain
      obtain ⟨apart, undeclared⟩ := utilityApart slot
      rw [keyOfPath?_utility segments (isNormal.names action member) apart undeclared,
        plainKey_of_normalize normalized, resourceName_eq_none filled inSections plain]

end Layout

end Vocabulary

end Registration

end ModuleRoutes
