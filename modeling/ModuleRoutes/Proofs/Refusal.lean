import ModuleRoutes.Proofs.Outcome

/-!
# Failed computations

A computation fails where its first failing step does, with the fault of that step. These laws find
the step; `ModuleRoutes.Outcome.FailsWithin` says which faults a computation can end in at all, step
by step.
-/

namespace ModuleRoutes

namespace Outcome

variable {ε ε' α β : Type}

theorem not_eq_ok_iff {step : Except ε α} :
    (¬∃ result, step = .ok result) ↔ ∃ fault, step = .error fault := by
  cases step <;> simp

/-- A sequence of two steps fails in the first, or else in the second on the result of the first. -/
theorem bind_eq_error_iff {first : Except ε α} {second : α → Except ε β} {fault : ε} :
    (first >>= second) = .error fault ↔
      first = .error fault ∨ ∃ middle, first = .ok middle ∧ second middle = .error fault := by
  cases first <;> simp [bind, Except.bind]

theorem mapError_eq_error_iff {rename : ε → ε'} {step : Except ε α} {fault : ε'} :
    step.mapError rename = .error fault ↔
      ∃ cause, step = .error cause ∧ fault = rename cause := by
  cases step <;> simp [Except.mapError, eq_comm]

theorem map_eq_error_iff {f : α → β} {step : Except ε α} {fault : ε} :
    step.map f = .error fault ↔ step = .error fault := by
  cases step <;> simp [Except.map]

/-- A traversal fails at the first item that does. -/
theorem mapM_eq_error_iff {step : α → Except ε β} {items : List α} {fault : ε} :
    items.mapM step = .error fault ↔ ∃ before item after, items = before ++ item :: after ∧
      (∀ earlier ∈ before, ∃ result, step earlier = .ok result) ∧ step item = .error fault := by
  induction items with
  | nil => simp [pure, Except.pure]
  | cons first items ih =>
      rw [List.mapM_cons, bind_eq_error_iff]
      constructor
      · rintro (here | ⟨value, atFirst, rest⟩)
        · exact ⟨[], first, items, rfl, nofun, here⟩
        · rcases bind_eq_error_iff.mp rest with later | ⟨_, _, ends⟩
          · obtain ⟨before, item, after, rfl, passed, atItem⟩ := ih.mp later
            exact ⟨first :: before, item, after, rfl,
              List.forall_mem_cons.mpr ⟨⟨value, atFirst⟩, passed⟩, atItem⟩
          · cases ends
      · rintro ⟨before, item, after, split, passed, atItem⟩
        cases before with
        | nil =>
            cases split
            exact .inl atItem
        | cons other before =>
            cases split
            obtain ⟨⟨value, atFirst⟩, passed⟩ := List.forall_mem_cons.mp passed
            have later := ih.mpr ⟨before, item, after, rfl, passed, atItem⟩
            exact .inr ⟨value, atFirst, bind_eq_error_iff.mpr (.inl later)⟩

theorem optional_mapM_eq_error_iff {step : α → Except ε β} {given : Option α} {fault : ε} :
    given.mapM step = .error fault ↔ ∃ item, given = some item ∧ step item = .error fault := by
  cases given with
  | none => simp [pure, Except.pure]
  | some item =>
      change (step item).map some = .error fault ↔ _
      rw [map_eq_error_iff]
      simp

/-! ## The faults that a computation can end in -/

/-- Every fault that a computation can end in is of a kind. -/
def FailsWithin (kind : ε → Prop) (step : Except ε α) : Prop :=
  ∀ fault, step = .error fault → kind fault

variable {kind : ε → Prop}

theorem failsWithin_ok (result : α) : FailsWithin kind (.ok result) := nofun

theorem failsWithin_error {fault : ε} (within : kind fault) :
    FailsWithin kind (.error fault : Except ε α) := by
  rintro _ ⟨⟩
  exact within

theorem FailsWithin.bind {first : Except ε α} {second : α → Except ε β}
    (atFirst : FailsWithin kind first) (atSecond : ∀ middle, FailsWithin kind (second middle)) :
    FailsWithin kind (first >>= second) := by
  intro fault fails
  rcases bind_eq_error_iff.mp fails with here | ⟨middle, _, later⟩
  · exact atFirst fault here
  · exact atSecond middle fault later

theorem FailsWithin.mapM {step : α → Except ε β} {items : List α}
    (each : ∀ item, FailsWithin kind (step item)) : FailsWithin kind (items.mapM step) := by
  intro fault fails
  obtain ⟨_, item, _, _, _, atItem⟩ := mapM_eq_error_iff.mp fails
  exact each item fault atItem

theorem FailsWithin.forM {check : α → Except ε Unit} {items : List α}
    (each : ∀ item, FailsWithin kind (check item)) : FailsWithin kind (items.forM check) := by
  induction items with
  | nil => exact failsWithin_ok ()
  | cons item items ih => exact (each item).bind fun _ => ih

end Outcome

end ModuleRoutes
