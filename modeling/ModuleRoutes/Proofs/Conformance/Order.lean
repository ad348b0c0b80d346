import ModuleRoutes.Conformance.Report
import ModuleRoutes.Proofs.HandlerKey.Order

/-!
# Report order

Findings are ordered field by field, and sorting them is stable. So what a report lists of one class
is the sorted list of the findings of this class (`ModuleRoutes.Conformance.filter_mergeSort`).
-/

namespace ModuleRoutes

namespace Conformance

open Std

section Stable

variable {α : Type} {le : α → α → Bool}

/-- A list is cut in one way only into members of a kind and, behind them, others. -/
theorem append_inj_of_kind (kind : α → Bool) {first second before after : List α}
    (same : first ++ second = before ++ after) (inFirst : ∀ item ∈ first, kind item = true)
    (inSecond : ∀ item ∈ second, kind item = false) (inBefore : ∀ item ∈ before, kind item = true)
    (inAfter : ∀ item ∈ after, kind item = false) : first = before ∧ second = after := by
  have cut : ∀ front rest : List α, (∀ item ∈ front, kind item = true) →
      (∀ item ∈ rest, kind item = false) → (front ++ rest).filter kind = front := by
    intro front rest inFront inRest
    rw [List.filter_append, List.filter_eq_self.mpr inFront,
      List.filter_eq_nil_iff.mpr fun item member => by simp [inRest item member], List.append_nil]
  have fronts : first = before := by
    rw [← cut first second inFirst inSecond, same, cut before after inBefore inAfter]
  exact ⟨fronts, List.append_cancel_left (fronts ▸ same)⟩

/-- Sorting is stable, so it makes no difference whether members are left out before or after. -/
theorem filter_mergeSort (trans : ∀ a b c, le a b → le b c → le a c)
    (total : ∀ a b, le a b || le b a) (keep : α → Bool) (items : List α) :
    (items.mergeSort le).filter keep = (items.filter keep).mergeSort le := by
  induction items with
  | nil => simp
  | cons item items ih =>
      obtain ⟨before, after, whole, rest, above⟩ := List.mergeSort_cons trans total item items
      have sorted := List.pairwise_mergeSort trans total (item :: items)
      rw [whole] at sorted ⊢
      have below := (List.pairwise_cons.mp (List.pairwise_append.mp sorted).2.1).1
      by_cases kept : keep item = true
      · obtain ⟨front, back, inKept, restKept, aboveKept⟩ :=
          List.mergeSort_cons trans total item (items.filter keep)
        have sortedKept := List.pairwise_mergeSort trans total (item :: items.filter keep)
        rw [inKept] at sortedKept
        have belowKept := (List.pairwise_cons.mp (List.pairwise_append.mp sortedKept).2.1).1
        -- Both sorted lists are cut where the members begin that the item does not come after.
        have same : before.filter keep ++ after.filter keep = front ++ back := by
          rw [← List.filter_append, ← rest, ih, restKept]
        obtain ⟨rfl, rfl⟩ := append_inj_of_kind (fun other => !le item other) same
          (fun other member => above other (List.mem_filter.mp member).1)
          (fun other member => by simp [below other (List.mem_filter.mp member).1])
          aboveKept (fun other member => by simp [belowKept other member])
        rw [List.filter_append, List.filter_cons_of_pos kept, List.filter_cons_of_pos kept, inKept]
      · rw [List.filter_append, List.filter_cons_of_neg kept, List.filter_cons_of_neg kept,
          ← List.filter_append, ← rest, ih]

end Stable

namespace Finding

theorem order_eq : order = compareLex (compareOn fun finding => finding.family.kind.rank)
    (compareLex (compareOn fun finding => finding.family.action)
      (compareLex (compareOn fun finding => finding.driftClass.rank)
        (compareLex (compareOn fun finding => finding.family.resource)
          (compareOn fun finding => finding.verdict.path)))) := by
  funext left right
  rw [order, compareOptional_eq_compare]
  rfl

instance : TransCmp order := by
  rw [order_eq]
  infer_instance

theorem notAfter_eq_isLE (left right : Finding) :
    left.notAfter right = (left.order right).isLE := by
  unfold notAfter
  cases left.order right <;> rfl

theorem notAfter_trans (first second third : Finding) (before : first.notAfter second)
    (after : second.notAfter third) : first.notAfter third := by
  rw [notAfter_eq_isLE] at *
  exact TransCmp.isLE_trans before after

theorem notAfter_total (left right : Finding) : left.notAfter right || right.notAfter left := by
  have swap : right.order left = (left.order right).swap := OrientedCmp.eq_swap
  rw [notAfter_eq_isLE, notAfter_eq_isLE, swap]
  cases left.order right <;> rfl

end Finding

end Conformance

end ModuleRoutes
