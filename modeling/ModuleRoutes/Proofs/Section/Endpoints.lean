import ModuleRoutes.Proofs.Registration.Keys

/-!
# The endpoints of a section

The routes of one section never collide: its actions have pairwise different names, and the path and
the method of an action tell its name, or its place where all actions are on one path
(`ModuleRoutes.Section.nodup_endpoints`).
-/

namespace ModuleRoutes

namespace Section

open Registration

variable {part : Section} {action other : Action} {index otherIndex : Nat}

/-- Below a root path, the segments of a path tell the action, and on the root path its place. -/
theorem place_or_name_of_anchored {root : String}
    (same : (if index = 0 then [root] else [root, action.name]) =
      if otherIndex = 0 then [root] else [root, other.name]) :
    index = otherIndex ∨ action.name = other.name := by
  by_cases first : index = 0
  · by_cases otherFirst : otherIndex = 0
    · exact .inl (first.trans otherFirst.symm)
    · simp [first, otherFirst] at same
  · by_cases otherFirst : otherIndex = 0
    · simp [first, otherFirst] at same
    · simpa [first, otherFirst] using Or.inr same

/-- Below the noun of a resource, the segments of a path and the method tell the action: they are
all that the key of an observed route is read off. -/
theorem name_of_resourceParts (normal : part.IsNormal) (rule : ∀ action ∈ part.actions,
      ∀ verb : Verb, action.name = verb.text → action.method = verb.method ∧
        action.needsId = verb.needsId)
    (named : part.resourceName.isSome) (member : action ∈ part.actions)
    (otherMember : other ∈ part.actions)
    (same : part.resourceParts action = part.resourceParts other)
    (sameMethod : action.method = other.method) : action.name = other.name := by
  obtain ⟨noun, given⟩ := Option.isSome_iff_exists.mp named
  have words : Vocabulary := ⟨"", [], "", "", []⟩
  obtain ⟨rest, parts, key⟩ := Vocabulary.keyBelowNoun?_resourceParts words
    (normal.names action member) (fun verb spelled => (rule action member verb spelled).1) given
  obtain ⟨otherRest, otherParts, otherKey⟩ := Vocabulary.keyBelowNoun?_resourceParts words
    (normal.names other otherMember)
    (fun verb spelled => (rule other otherMember verb spelled).1) given
  have sameRest : rest = otherRest :=
    (List.cons.inj (parts.symm.trans (same.trans otherParts))).2
  rw [← sameRest, ← sameMethod, key] at otherKey
  exact congrArg HandlerKey.action (Option.some.inj otherKey)

/-- Two actions of a section on one path with one method have one name or one place. -/
theorem place_or_name_of_pathAt (keeps : part.Conventional) (normal : part.IsNormal)
    (named : part.kind.isResource = true → part.resourceName.isSome)
    (placed : part.actions[index]? = some action)
    (otherPlaced : part.actions[otherIndex]? = some other)
    (samePath : part.pathAt index action = part.pathAt otherIndex other)
    (sameMethod : action.method = other.method) :
    index = otherIndex ∨ action.name = other.name := by
  have member := List.mem_of_getElem? placed
  have otherMember := List.mem_of_getElem? otherPlaced
  have rule := keeps.kindRule
  have same : part.partsAt index action = part.partsAt otherIndex other := by
    rw [← segments_pathAt normal named member, samePath, segments_pathAt normal named otherMember]
  unfold KindRule at rule
  unfold partsAt at same
  cases kind : part.kind.kind with
  | dashboard =>
      rw [kind] at same
      exact place_or_name_of_anchored same
  | resource =>
      rw [kind] at same rule
      exact .inr (name_of_resourceParts normal rule (named (by simp [Slot.isResource, kind])) member
        otherMember same sameMethod)
  | analytics =>
      rw [kind] at same
      exact place_or_name_of_anchored same
  | settings =>
      -- Both settings are on one path, and the method tells them apart.
      rw [kind] at rule
      have methods : ∀ {place : Nat} {found : Action}, part.actions[place]? = some found →
          [Method.get, .put][place]? = some found.method := by
        intro place found atPlace
        rw [← rule.1, List.getElem?_map, atPlace, Option.map_some]
      have sameEntry : [Method.get, .put][index]? = [Method.get, .put][otherIndex]? := by
        rw [methods placed, methods otherPlaced, sameMethod]
      have inside : index < [Method.get, .put].length :=
        (List.getElem?_eq_some_iff.mp (methods placed)).1
      exact .inl ((List.getElem?_inj inside (by decide)).mp sameEntry)
  | utilities =>
      rw [kind] at same
      exact .inr (List.cons.inj same).1

/-- The actions of a section in normal form that keeps the conventions fall on different methods and
paths. -/
theorem nodup_endpoints (keeps : part.Conventional) (normal : part.IsNormal)
    (named : part.kind.isResource = true → part.resourceName.isSome) : part.endpoints.Nodup := by
  rw [List.nodup_iff_getElem?_ne_getElem?]
  intro index otherIndex before inside same
  rw [endpoints, List.length_mapIdx] at inside
  have placed := List.getElem?_eq_getElem (Nat.lt_trans before inside)
  have otherPlaced := List.getElem?_eq_getElem inside
  rw [endpoints, List.getElem?_mapIdx, List.getElem?_mapIdx, placed, otherPlaced, Option.map_some,
    Option.map_some, Option.some.injEq, Prod.mk.injEq] at same
  rcases place_or_name_of_pathAt keeps normal named placed otherPlaced same.1 same.2 with
    samePlace | sameName
  · exact Nat.ne_of_lt before samePlace
  · have insideNames : index < (part.actions.map Action.name).length := by
      rw [List.length_map]
      exact Nat.lt_trans before inside
    refine Nat.ne_of_lt before ((List.getElem?_inj insideNames keeps.distinctNames).mp ?_)
    rw [List.getElem?_map, List.getElem?_map, placed, otherPlaced, Option.map_some,
      Option.map_some, sameName]

end Section

end ModuleRoutes
