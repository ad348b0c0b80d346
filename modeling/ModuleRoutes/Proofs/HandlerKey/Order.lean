import ModuleRoutes.HandlerKey

/-!
# The order of handler keys

Keys are ordered field by field. The order is linear, so that sorting keys and dropping repeats
lists each of them once, in strictly ascending order
(`ModuleRoutes.HandlerKey.pairwise_sortedDistinct`).
-/

namespace ModuleRoutes

open Std

/-! ## Sorted lists without repeats -/

section Sorted

variable {α : Type} [DecidableEq α] {cmp : α → α → Ordering}

theorem mem_dropRepeats {item : α} {items : List α} : item ∈ dropRepeats items ↔ item ∈ items := by
  fun_induction dropRepeats items with
  | case1 => exact Iff.rfl
  | case2 only => exact Iff.rfl
  | case3 next items ih =>
      rw [ih]
      constructor
      · exact List.mem_cons_of_mem _
      · intro member
        rcases List.mem_cons.mp member with rfl | later
        · exact List.mem_cons_self
        · exact later
  | case4 first next items _ ih => rw [List.mem_cons, ih, ← List.mem_cons]

/-- A sorted list without repeats is strictly ascending. -/
theorem pairwise_dropRepeats [TransCmp cmp] [LawfulEqCmp cmp] {items : List α}
    (sorted : items.Pairwise fun left right => (cmp left right).isLE = true) :
    (dropRepeats items).Pairwise fun left right => cmp left right = .lt := by
  fun_induction dropRepeats items with
  | case1 => exact .nil
  | case2 only => exact List.pairwise_singleton _ _
  | case3 next items ih => exact ih sorted.of_cons
  | case4 first next items different ih =>
      obtain ⟨above, later⟩ := List.pairwise_cons.mp sorted
      refine List.pairwise_cons.mpr ⟨fun other member => ?_, ih later⟩
      have below : cmp first next = .lt :=
        Ordering.isLE_iff_eq_lt_or_eq_eq.mp (above next List.mem_cons_self) |>.resolve_right
          fun same => different (LawfulEqCmp.eq_of_compare same)
      rcases List.mem_cons.mp (mem_dropRepeats.mp member) with rfl | beyond
      · exact below
      · exact TransCmp.lt_of_lt_of_isLE below ((List.pairwise_cons.mp later).1 other beyond)

end Sorted

/-! ## Keys -/

theorem compareOptional_eq_compare (left right : Option String) :
    compareOptional left right = compare left right := by
  cases left <;> cases right <;> rfl

theorem Kind.eq_of_rank_eq {left right : Kind} (same : left.rank = right.rank) : left = right := by
  cases left <;> cases right <;> first | rfl | cases same

namespace Family

theorem order_eq : order = compareLex (compareOn fun family => family.kind.rank)
    (compareLex (compareOn Family.resource) (compareOn Family.action)) := by
  funext left right
  rw [order, compareOptional_eq_compare]
  rfl

instance : TransCmp order := by
  rw [order_eq]
  infer_instance

instance : LawfulEqCmp order where
  compare_self := ReflCmp.compare_self
  eq_of_compare {left right} same := by
    obtain ⟨kind, rest⟩ := Ordering.then_eq_eq.mp same
    obtain ⟨resource, action⟩ := Ordering.then_eq_eq.mp rest
    rw [compareOptional_eq_compare] at resource
    obtain ⟨leftKind, leftResource, leftAction⟩ := left
    obtain ⟨rightKind, rightResource, rightAction⟩ := right
    cases Kind.eq_of_rank_eq (LawfulEqCmp.eq_of_compare kind)
    cases LawfulEqCmp.eq_of_compare resource
    cases LawfulEqCmp.eq_of_compare action
    rfl

end Family

namespace HandlerKey

theorem order_eq : order = compareLex (compareOn HandlerKey.moduleId)
    fun left right => left.family.order right.family := rfl

instance : TransCmp fun left right : HandlerKey => left.family.order right.family where
  eq_swap {left right} := by
    have swap : left.family.order right.family = (right.family.order left.family).swap :=
      OrientedCmp.eq_swap
    exact swap
  isLE_trans {first second third} before after := by
    have chain : (first.family.order third.family).isLE := TransCmp.isLE_trans before after
    exact chain

instance : TransCmp order := by
  rw [order_eq]
  infer_instance

instance : LawfulEqCmp order where
  compare_self := ReflCmp.compare_self
  eq_of_compare {left right} same := by
    obtain ⟨moduleId, family⟩ := Ordering.then_eq_eq.mp same
    have families : left.family = right.family := LawfulEqCmp.eq_of_compare family
    obtain ⟨leftModule, leftKind, leftResource, leftAction⟩ := left
    obtain ⟨rightModule, rightKind, rightResource, rightAction⟩ := right
    cases LawfulEqCmp.eq_of_compare moduleId
    cases families
    rfl

theorem notAfter_eq_isLE (left right : HandlerKey) :
    left.notAfter right = (left.order right).isLE := by
  unfold notAfter
  cases left.order right <;> rfl

theorem pairwise_sorted (keys : List HandlerKey) :
    (sorted keys).Pairwise fun left right => (left.order right).isLE = true := by
  simp only [← notAfter_eq_isLE]
  apply List.pairwise_mergeSort
  · intro first second third before after
    rw [notAfter_eq_isLE] at *
    exact TransCmp.isLE_trans before after
  · intro left right
    have swap : right.order left = (left.order right).swap := OrientedCmp.eq_swap
    rw [notAfter_eq_isLE, notAfter_eq_isLE, swap]
    cases left.order right <;> rfl

/-- Sorted keys without repeats are strictly ascending. -/
theorem pairwise_sortedDistinct (keys : List HandlerKey) :
    (sortedDistinct keys).Pairwise fun left right => left.order right = .lt :=
  pairwise_dropRepeats (pairwise_sorted keys)

theorem mem_sortedDistinct {key : HandlerKey} {keys : List HandlerKey} :
    key ∈ sortedDistinct keys ↔ key ∈ keys := by
  rw [sortedDistinct, mem_dropRepeats, sorted, List.mem_mergeSort]

end HandlerKey

end ModuleRoutes
