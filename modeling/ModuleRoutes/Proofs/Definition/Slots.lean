import Mathlib.Data.List.Nodup
import ModuleRoutes.Definition.Normalize
import ModuleRoutes.Proofs.Outcome

/-!
# Filled slots

A definition fills its slots when each slot has exactly one section and the resource slots are those
with a resource. Slot validation accepts exactly such definitions
(`ModuleRoutes.Definition.validateSlots_eq_ok_iff`), and looking up every slot of one gives its
sections in another order (`ModuleRoutes.Definition.SlotsFilled.perm_sections`).
-/

namespace ModuleRoutes

namespace Slot

theorem mem_all (slot : Slot) : slot ∈ all := by cases slot <;> decide

theorem nodup_all : all.Nodup := by decide

/-- No slot is found lacking when every slot is there. -/
theorem find?_not_mem_eq_none_iff {kinds : List Slot} :
    (all.find? fun slot => slot ∉ kinds) = none ↔ ∀ slot, slot ∈ kinds := by
  rw [List.find?_eq_none]
  simp [mem_all]

/-- Two slots of one kind are slots of resources. -/
theorem isResource_of_kind_eq {slot otherSlot : Slot} (different : slot ≠ otherSlot)
    (same : slot.kind = otherSlot.kind) : slot.isResource = true := by
  revert different same
  cases slot <;> cases otherSlot <;> decide

end Slot

namespace Definition

/-- A definition with other actions in a slot. -/
def withActions (definition : Definition) (slot : Slot) (actions : List Action) : Definition :=
  { definition with
    sections := definition.sections.map fun part =>
      if part.kind = slot then { part with actions := actions } else part }

/-- A definition with one section for each slot, in which the resource sections and no others name a
resource. -/
structure SlotsFilled (definition : Definition) : Prop where
  once : ∀ slot, (definition.sections.map Section.kind).count slot = 1
  nouns : ∀ part ∈ definition.sections, part.resourceName.isSome = part.kind.isResource

variable {definition : Definition}

/-- Whether slots are filled depends on the slots of the sections and on which have a resource. -/
theorem slotsFilled_congr {other : Definition}
    (same : (definition.sections.map fun part => (part.kind, part.resourceName.isSome)) =
      other.sections.map fun part => (part.kind, part.resourceName.isSome)) :
    definition.SlotsFilled ↔ other.SlotsFilled := by
  have described : ∀ given : Definition, given.SlotsFilled ↔
      (∀ slot, ((given.sections.map fun part => (part.kind, part.resourceName.isSome)).map
        Prod.fst).count slot = 1) ∧
      ∀ pair ∈ given.sections.map fun part => (part.kind, part.resourceName.isSome),
        pair.2 = pair.1.isResource := by
    intro given
    rw [List.map_map, List.forall_mem_map]
    exact ⟨fun ⟨once, nouns⟩ => ⟨once, nouns⟩, fun ⟨once, nouns⟩ => ⟨once, nouns⟩⟩
  rw [described, described, same]

/-! ## Validation -/

theorem checkSlot_eq_ok_iff {seen : List Slot} {part : Section} :
    checkSlot seen part = .ok () ↔
      part.kind ∉ seen ∧ part.resourceName.isSome = part.kind.isResource := by
  unfold checkSlot
  split
  · simp_all
  · cases part.kind.isResource <;> cases part.resourceName <;> simp_all

/-- Sections pass in order when their slots are fresh and distinct; all of these are then seen. -/
theorem checkSlots_eq_ok_iff {seen result : List Slot} {parts : List Section} :
    checkSlots seen parts = .ok result ↔
      (∀ part ∈ parts, part.kind ∉ seen) ∧ (parts.map Section.kind).Nodup ∧
        (∀ part ∈ parts, part.resourceName.isSome = part.kind.isResource) ∧
        result = (parts.map Section.kind).reverse ++ seen := by
  induction parts generalizing seen with
  | nil => simp [checkSlots, eq_comm]
  | cons part parts ih =>
      rw [checkSlots, Outcome.check_bind_eq_ok_iff, checkSlot_eq_ok_iff, ih]
      rw [List.forall_mem_cons, List.forall_mem_cons, List.map_cons, List.nodup_cons,
        List.reverse_cons, List.append_assoc, List.singleton_append]
      constructor
      · rintro ⟨⟨fresh, noun⟩, apart, distinct, nouns, rfl⟩
        refine ⟨⟨fresh, fun other member inSeen =>
          apart other member (List.mem_cons_of_mem _ inSeen)⟩, ⟨fun repeated => ?_, distinct⟩,
          ⟨noun, nouns⟩, rfl⟩
        obtain ⟨other, member, same⟩ := List.mem_map.mp repeated
        exact apart other member (same ▸ List.mem_cons_self)
      · rintro ⟨⟨fresh, unseen⟩, ⟨apart, distinct⟩, ⟨noun, nouns⟩, rfl⟩
        refine ⟨⟨fresh, noun⟩, fun other member inSeen => ?_, distinct, nouns, rfl⟩
        rcases List.mem_cons.mp inSeen with same | earlier
        · exact apart (List.mem_map.mpr ⟨other, member, same⟩)
        · exact unseen other member earlier

/-- Validation accepts the definitions that fill their slots. -/
theorem validateSlots_eq_ok_iff : definition.validateSlots = .ok () ↔ definition.SlotsFilled := by
  unfold validateSlots
  rw [Outcome.bind_eq_ok_iff]
  constructor
  · rintro ⟨_, checked, complete⟩
    obtain ⟨_, distinct, nouns, rfl⟩ := checkSlots_eq_ok_iff.mp checked
    refine ⟨fun slot => List.count_eq_one_of_mem distinct ?_, nouns⟩
    split at complete
    case _ => cases complete
    case _ lacking => simpa using Slot.find?_not_mem_eq_none_iff.mp lacking slot
  · rintro ⟨once, nouns⟩
    have distinct : (definition.sections.map Section.kind).Nodup :=
      List.nodup_iff_count_le_one.mpr fun slot => Nat.le_of_eq (once slot)
    refine ⟨_, checkSlots_eq_ok_iff.mpr ⟨by simp, distinct, nouns, rfl⟩, ?_⟩
    rw [Slot.find?_not_mem_eq_none_iff.mpr]
    · rfl
    · intro slot
      rw [List.append_nil, List.mem_reverse, ← List.count_pos_iff, once slot]
      exact Nat.one_pos

/-! ## The section of each slot -/

namespace SlotsFilled

theorem nodup_kinds (filled : definition.SlotsFilled) :
    (definition.sections.map Section.kind).Nodup :=
  List.nodup_iff_count_le_one.mpr fun slot => Nat.le_of_eq (filled.once slot)

theorem noun_isSome (filled : definition.SlotsFilled) {part : Section}
    (member : part ∈ definition.sections) (resource : part.kind.isResource = true) :
    part.resourceName.isSome := by
  rw [filled.nouns part member, resource]

/-- A slot finds the one section that fills it. -/
theorem findSection?_eq_some_iff (filled : definition.SlotsFilled) {slot : Slot} {part : Section} :
    definition.findSection? slot = some part ↔ part ∈ definition.sections ∧ part.kind = slot := by
  unfold findSection?
  constructor
  · intro found
    exact ⟨List.mem_of_find?_eq_some found, by simpa using List.find?_some found⟩
  · rintro ⟨member, rfl⟩
    obtain ⟨other, found⟩ := Option.isSome_iff_exists.mp
      ((List.find?_isSome (p := fun other : Section => decide (other.kind = part.kind))).mpr
        ⟨part, member, by simp⟩)
    have sameKind : other.kind = part.kind := by simpa using List.find?_some found
    rw [found, List.inj_on_of_nodup_map filled.nodup_kinds (List.mem_of_find?_eq_some found) member
      sameKind]

theorem exists_findSection? (filled : definition.SlotsFilled) (slot : Slot) :
    ∃ part, definition.findSection? slot = some part := by
  have present : slot ∈ definition.sections.map Section.kind := by
    rw [← List.count_pos_iff, filled.once slot]
    exact Nat.one_pos
  obtain ⟨part, member, kind⟩ := List.mem_map.mp present
  exact ⟨part, filled.findSection?_eq_some_iff.mpr ⟨member, kind⟩⟩

/-- The sections in the order of the slots are the sections as authored, reordered. -/
theorem perm_sections (filled : definition.SlotsFilled) :
    (Slot.all.filterMap definition.findSection?).Perm definition.sections := by
  refine (List.perm_ext_iff_of_nodup ?_ ?_).mpr fun part => ?_
  · refine Slot.nodup_all.filterMap fun slot other part found otherFound => ?_
    rw [← (filled.findSection?_eq_some_iff.mp found).2,
      (filled.findSection?_eq_some_iff.mp otherFound).2]
  · exact filled.nodup_kinds.of_map _
  · simp only [List.mem_filterMap, filled.findSection?_eq_some_iff]
    constructor
    · rintro ⟨_, _, member, _⟩
      exact member
    · intro member
      exact ⟨part.kind, part.kind.mem_all, member, rfl⟩

end SlotsFilled

end Definition

end ModuleRoutes
