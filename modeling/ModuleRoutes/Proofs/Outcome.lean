import ModuleRoutes.Proofs.Places

/-!
# Successful computations

A computation that may fail succeeds exactly when its steps do. These laws take a successful result
apart step by step, and put it together again, so that a function of several checks is described by
what each check accepts.
-/

namespace ModuleRoutes

namespace Outcome

variable {ε ε' α β : Type}

theorem exists_eq_ok {step : Except ε α} (succeeds : step.isOk = true) :
    ∃ result, step = .ok result := by
  cases step with
  | error fault => cases succeeds
  | ok result => exact ⟨result, rfl⟩

theorem exists_of_any_toOption {step : Except ε α} {property : α → Bool}
    (checked : step.toOption.any property = true) :
    ∃ result, step = .ok result ∧ property result = true := by
  cases step with
  | error fault => cases checked
  | ok result => exact ⟨result, rfl, checked⟩

theorem pure_eq_ok_iff {value result : α} :
    (pure value : Except ε α) = .ok result ↔ result = value := by
  simp [pure, Except.pure, eq_comm]

/-- A sequence of two steps succeeds when the first does and the second does on its result. -/
theorem bind_eq_ok_iff {first : Except ε α} {second : α → Except ε β} {result : β} :
    (first >>= second) = .ok result ↔
      ∃ middle, first = .ok middle ∧ second middle = .ok result := by
  cases first with
  | error fault => simp [bind, Except.bind]
  | ok middle => simp [bind, Except.bind]

/-- A check before a step: both have to succeed. -/
theorem check_bind_eq_ok_iff {check : Except ε Unit} {step : Unit → Except ε β} {result : β} :
    (check >>= step) = .ok result ↔ check = .ok () ∧ step () = .ok result := by
  rw [bind_eq_ok_iff]
  exact ⟨fun ⟨(), passed, next⟩ => ⟨passed, next⟩, fun ⟨passed, next⟩ => ⟨(), passed, next⟩⟩

theorem mapError_eq_ok_iff {rename : ε → ε'} {step : Except ε α} {result : α} :
    step.mapError rename = .ok result ↔ step = .ok result := by
  cases step <;> simp [Except.mapError]

theorem map_eq_ok_iff {f : α → β} {step : Except ε α} {result : β} :
    step.map f = .ok result ↔ ∃ value, step = .ok value ∧ f value = result := by
  cases step <;> simp [Except.map]

/-- A traversal succeeds when every item does, and gives the results in order. -/
theorem mapM_eq_ok_iff {step : α → Except ε β} {items : List α} {results : List β} :
    items.mapM step = .ok results ↔
      List.Forall₂ (fun item result => step item = .ok result) items results := by
  induction items generalizing results with
  | nil => cases results <;> simp [pure, Except.pure]
  | cons item items ih =>
      rw [List.mapM_cons, bind_eq_ok_iff]
      constructor
      · rintro ⟨value, atItem, rest⟩
        obtain ⟨values, atItems, joined⟩ := bind_eq_ok_iff.mp rest
        cases joined
        exact .cons atItem (ih.mp atItems)
      · intro pointwise
        cases pointwise with
        | cons atItem atItems =>
            exact ⟨_, atItem, bind_eq_ok_iff.mpr ⟨_, ih.mpr atItems, rfl⟩⟩

theorem exists_of_mem_mapM {step : α → Except ε β} {items : List α} {results : List β} {result : β}
    (traversed : items.mapM step = .ok results) (member : result ∈ results) :
    ∃ item ∈ items, step item = .ok result :=
  Places.exists_of_mem_forall₂ (mapM_eq_ok_iff.mp traversed) member

theorem exists_mapM_eq_ok_iff {step : α → Except ε β} {items : List α} :
    (∃ results, items.mapM step = .ok results) ↔
      ∀ item ∈ items, ∃ result, step item = .ok result := by
  simp only [mapM_eq_ok_iff]
  induction items with
  | nil => simp
  | cons item items ih =>
      constructor
      · rintro ⟨_, pointwise⟩
        cases pointwise with
        | cons atItem atItems =>
            exact List.forall_mem_cons.mpr ⟨⟨_, atItem⟩, ih.mp ⟨_, atItems⟩⟩
      · intro each
        obtain ⟨⟨value, atItem⟩, rest⟩ := List.forall_mem_cons.mp each
        obtain ⟨values, atItems⟩ := ih.mpr rest
        exact ⟨value :: values, .cons atItem atItems⟩

theorem forM_eq_ok_iff {check : α → Except ε Unit} {items : List α} :
    items.forM check = .ok () ↔ ∀ item ∈ items, check item = .ok () := by
  induction items with
  | nil => simp [pure, Except.pure]
  | cons item items ih =>
      change (check item >>= fun _ => items.forM check) = .ok () ↔ _
      rw [check_bind_eq_ok_iff, ih, List.forall_mem_cons]

/-- A traversal whose step passes a condition and then maps the item succeeds when every item
passes. -/
theorem mapM_eq_ok_iff_map {step : α → Except ε β} (passes : α → Prop) {f : α → β} {items : List α}
    (described : ∀ item ∈ items, ∀ result, step item = .ok result ↔ passes item ∧ result = f item)
    {results : List β} :
    items.mapM step = .ok results ↔ (∀ item ∈ items, passes item) ∧ results = items.map f := by
  induction items generalizing results with
  | nil => simp [pure, Except.pure, eq_comm]
  | cons item items ih =>
      have later := @ih fun other member => described other (List.mem_cons_of_mem _ member)
      have first := described item List.mem_cons_self
      rw [List.mapM_cons, bind_eq_ok_iff, List.forall_mem_cons, List.map_cons]
      constructor
      · rintro ⟨value, atItem, rest⟩
        obtain ⟨passed, rfl⟩ := (first value).mp atItem
        obtain ⟨values, atItems, joined⟩ := bind_eq_ok_iff.mp rest
        obtain ⟨allPassed, rfl⟩ := later.mp atItems
        cases joined
        exact ⟨⟨passed, allPassed⟩, rfl⟩
      · rintro ⟨⟨passed, allPassed⟩, rfl⟩
        exact ⟨f item, (first _).mpr ⟨passed, rfl⟩,
          bind_eq_ok_iff.mpr ⟨items.map f, later.mpr ⟨allPassed, rfl⟩, rfl⟩⟩

theorem optional_mapM_eq_ok_iff {step : α → Except ε β} {given : Option α} {result : Option β} :
    given.mapM step = .ok result ↔
      (given = none ∧ result = none) ∨
        ∃ item value, given = some item ∧ step item = .ok value ∧ result = some value := by
  cases given with
  | none => cases result <;> simp [pure, Except.pure]
  | some item =>
      change (step item).map some = .ok result ↔ _
      rw [map_eq_ok_iff]
      simp [eq_comm]

end Outcome

end ModuleRoutes
