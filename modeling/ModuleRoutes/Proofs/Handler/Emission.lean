import ModuleRoutes.Handler.Emission
import ModuleRoutes.Proofs.Handler.Binding
import ModuleRoutes.Proofs.Places

/-!
# What is emitted

An emitted module has the mount of its table and its routes one by one, each with the handler that
its key is bound to (`ModuleRoutes.RouteTable.emits_of_emit`).
-/

namespace ModuleRoutes

theorem dropRepeats_eq_nil_iff {α : Type} [DecidableEq α] {items : List α} :
    dropRepeats items = [] ↔ items = [] := by
  fun_induction dropRepeats items with
  | case1 => exact Iff.rfl
  | case2 item => exact Iff.rfl
  | case3 item items ih => exact iff_of_false (by simpa using ih) nofun
  | case4 item next items different ih => exact iff_of_false nofun nofun

/-- Keys that are bound one after the other are all bound in the end, and so are those bound before.
-/
theorem Binding.isSome_get?_foldl_insert {binding : Binding} {key : HandlerKey}
    {keys : List HandlerKey} {handlerOf : HandlerKey → Handler}
    (bound : (binding.get? key).isSome = true ∨ key ∈ keys) :
    ((keys.foldl (fun binding key => binding.insert key (handlerOf key)) binding).get? key).isSome =
      true := by
  rw [get?_foldl_insert]
  split
  · rfl
  · next absent => exact bound.resolve_right absent

/-- A route with the method, the path and the key of another one, and a handler that the key is
bound to. -/
structure EmittedRoute.Emits (binding : Binding) (route : Route) (emitted : EmittedRoute) :
    Prop where
  method : emitted.method = route.method
  path : emitted.path = route.path
  handlerKey : emitted.handlerKey = route.handlerKey
  handler : binding.get? route.handlerKey = some emitted.handler

namespace RouteTable

variable {table : RouteTable} {binding : Binding} {emitted : EmittedModule}

theorem unboundKeys_eq_nil_iff :
    table.unboundKeys binding = [] ↔
      ∀ route ∈ table.routes, (binding.get? route.handlerKey).isSome = true := by
  have sorted : ∀ keys : List HandlerKey, HandlerKey.sorted keys = [] ↔ keys = [] := by
    intro keys
    rw [HandlerKey.sorted, ← List.length_eq_zero_iff, List.length_mergeSort,
      List.length_eq_zero_iff]
  rw [unboundKeys, HandlerKey.sortedDistinct, dropRepeats_eq_nil_iff, sorted,
    List.filter_eq_nil_iff, handlerKeys, List.forall_mem_map]
  simp only [Binding.contains, Bool.not_eq_true', Bool.not_eq_false]

/-- An emitted module has all routes of its table, each with its handler. -/
theorem emits_of_emit (emits : table.emit binding = .ok emitted) :
    emitted.moduleId = table.moduleId ∧ emitted.mount = table.mount ∧
      List.Forall₂ (EmittedRoute.Emits binding) table.routes emitted.routes := by
  unfold emit at emits
  split at emits
  case h_2 => cases emits
  case h_1 bound =>
    cases emits
    refine ⟨rfl, rfl, ?_⟩
    refine Places.forall₂_filterMap fun route member => ?_
    obtain ⟨handler, found⟩ :=
      Option.isSome_iff_exists.mp (unboundKeys_eq_nil_iff.mp bound route member)
    exact ⟨⟨route.method, route.path, route.handlerKey, handler⟩, by rw [found, Option.map_some],
      ⟨rfl, rfl, rfl, found⟩⟩

/-- A table whose keys are all bound can be emitted. -/
theorem exists_emit_eq_ok
    (bound : ∀ route ∈ table.routes, (binding.get? route.handlerKey).isSome = true) :
    ∃ emitted, table.emit binding = .ok emitted := by
  rw [emit, unboundKeys_eq_nil_iff.mpr bound]
  exact ⟨_, rfl⟩

theorem exists_emit_stubsFor (table : RouteTable) :
    ∃ emitted, table.emit (Binding.stubsFor table) = .ok emitted := by
  refine exists_emit_eq_ok fun route member => ?_
  exact Binding.isSome_get?_foldl_insert (.inr (List.mem_map_of_mem member))

end RouteTable

end ModuleRoutes
