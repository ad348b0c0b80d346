import ModuleRoutes.Proofs.Handler.Declared
import ModuleRoutes.Proofs.Handler.Emission
import ModuleRoutes.Proofs.HandlerKey.Order

/-!
# Emission after a history of edits

A binding comes about by edits: it is begun anew, keys are bound and taken out, and it is filled
with placeholders and with declared handlers. What it holds for a key is what the last edit that
concerns the key says (`ModuleRoutes.Binding.get?_of_run`). A table is emitted with a binding as a
whole or not at all, whatever edits the binding went through
(`ModuleRoutes.RouteTable.emitsWholly_of_run`).
-/

namespace ModuleRoutes

namespace Binding

/-- A change to a binding. -/
inductive Edit where
  | renew
  | insert (key : HandlerKey) (handler : Handler)
  | erase (key : HandlerKey)
  | placeholders (table : RouteTable)
  | declared (declarations : List (String × Handler))

/-- The binding after an edit. Only declarations that are refused are no edit. -/
def apply (binding : Binding) : Edit → Except InvalidKey Binding
  | .renew => .ok empty
  | .insert key handler => .ok (binding.insert key handler)
  | .erase key => .ok (binding.erase key)
  | .placeholders table => .ok (binding.extend (stubsFor table))
  | .declared declarations => (ofDeclared declarations).map binding.extend

/-- The binding after edits, from nothing. -/
def run (edits : List Edit) : Except InvalidKey Binding := edits.foldlM apply empty

/-- The first handler that is declared under the text of a key. -/
def declaredHandler? (declarations : List (String × Handler)) (key : HandlerKey) : Option Handler :=
  (declarations.find? fun entry => (HandlerKey.parse entry.1).toOption = some key).map Prod.snd

/-- What an edit says of a key: its handler or that it has none, nothing if the edit does not
concern the key. -/
def Edit.says? (key : HandlerKey) : Edit → Option (Option Handler)
  | .renew => some none
  | .insert bound handler => if key = bound then some (some handler) else none
  | .erase taken => if key = taken then some none else none
  | .placeholders table =>
    if key ∈ table.handlerKeys then some (some (Handler.constant (stubAnswer key))) else none
  | .declared declarations => (declaredHandler? declarations key).map some

/-- The handler that the last edit that concerns a key says it has. -/
def latest? (edits : List Edit) (key : HandlerKey) : Option Handler :=
  (edits.reverse.findSome? (Edit.says? key)).join

variable {binding next : Binding} {key : HandlerKey} {edit : Edit} {edits : List Edit}

/-! ## One edit -/

theorem get?_of_declare {entry : String × Handler} (declares : binding.declare entry = .ok next) :
    next.get? key = (binding.get? key).or (declaredHandler? [entry] key) := by
  obtain ⟨bound, parsed, rest⟩ := Outcome.bind_eq_ok_iff.mp declares
  unfold declaredHandler?
  split at rest
  · cases rest
  · next fresh =>
    cases rest
    by_cases same : bound = key
    · subst same
      have absent : binding.get? bound = none := by simpa [contains] using fresh
      rw [get?_insert_self, absent, List.find?_cons_of_pos (by simp [parsed, Except.toOption])]
      rfl
    · rw [get?_insert_of_ne (Ne.symm same),
        List.find?_cons_of_neg (by simpa [parsed, Except.toOption] using same)]
      exact (Option.or_none).symm

theorem get?_foldlM_declare {declarations : List (String × Handler)}
    (declares : declarations.foldlM declare binding = .ok next) :
    next.get? key = (binding.get? key).or (declaredHandler? declarations key) := by
  induction declarations generalizing binding with
  | nil =>
      cases declares
      exact (Option.or_none).symm
  | cons entry declarations ih =>
      obtain ⟨middle, first, rest⟩ := Outcome.bind_eq_ok_iff.mp declares
      have split : declaredHandler? (entry :: declarations) key =
          (declaredHandler? [entry] key).or (declaredHandler? declarations key) := by
        unfold declaredHandler?
        rw [← List.singleton_append, List.find?_append, Option.map_or]
      rw [ih rest, get?_of_declare first, split, Option.or_assoc]

/-- An edit decides the keys that it concerns and leaves the others as they are. -/
theorem get?_of_apply (applies : binding.apply edit = .ok next) :
    next.get? key = (edit.says? key).getD (binding.get? key) := by
  cases edit with
  | renew =>
      cases applies
      rfl
  | insert bound handler =>
      cases applies
      by_cases same : key = bound
      · rw [Edit.says?, if_pos same, same, get?_insert_self, Option.getD_some]
      · rw [Edit.says?, if_neg same, get?_insert_of_ne same, Option.getD_none]
  | erase taken =>
      cases applies
      by_cases same : key = taken
      · rw [Edit.says?, if_pos same, same, get?_erase_self, Option.getD_some]
      · rw [Edit.says?, if_neg same, get?_erase_of_ne same, Option.getD_none]
  | placeholders table =>
      cases applies
      rw [get?_extend, get?_stubsFor, Edit.says?]
      split <;> rfl
  | declared declarations =>
      obtain ⟨added, declares, rfl⟩ := Outcome.map_eq_ok_iff.mp applies
      have inOrder : declarations.foldlM declare empty = .ok added := declares
      have held : added.get? key = declaredHandler? declarations key := get?_foldlM_declare inOrder
      rw [get?_extend, held, Edit.says?]
      cases declaredHandler? declarations key <;> rfl

/-! ## A history -/

/-- A key has the handler that the last edit that concerns it says. -/
theorem get?_of_run (ran : run edits = .ok binding) (key : HandlerKey) :
    binding.get? key = latest? edits key := by
  have onward : ∀ {start : Binding}, edits.foldlM apply start = .ok binding →
      binding.get? key = (edits.reverse.findSome? (Edit.says? key)).getD (start.get? key) := by
    clear ran
    induction edits with
    | nil =>
        intro start ends
        cases ends
        rfl
    | cons edit edits ih =>
        intro start ran
        obtain ⟨middle, first, rest⟩ := Outcome.bind_eq_ok_iff.mp ran
        rw [ih rest, get?_of_apply first, List.reverse_cons, List.findSome?_append,
          List.findSome?_singleton, Option.getD_or]
  rw [onward ran, latest?]
  cases edits.reverse.findSome? (Edit.says? key) <;> rfl

end Binding

namespace RouteTable

/-- A table is emitted with a binding as a whole or not at all, and each key of the binding has the
handler that the last of some edits says. -/
structure EmitsWholly (table : RouteTable) (edits : List Binding.Edit) (binding : Binding) :
    Prop where
  latest : ∀ key, binding.get? key = Binding.latest? edits key
  exists_iff : (∃ emitted, table.emit binding = .ok emitted) ↔
    ∀ key ∈ table.handlerKeys, (binding.get? key).isSome
  whole : ∀ emitted, table.emit binding = .ok emitted →
    emitted.moduleId = table.moduleId ∧ emitted.mount = table.mount ∧
      List.Forall₂ (EmittedRoute.Emits binding) table.routes emitted.routes
  unbound : ∀ fault, table.emit binding = .error fault → ∃ keys,
    fault = .unboundHandler table.moduleId keys ∧
      (keys.Pairwise fun left right => left.order right = .lt) ∧
      ∀ key, key ∈ keys ↔ key ∈ table.handlerKeys ∧ binding.get? key = none
  stubs : ∃ emitted, table.emit (Binding.stubsFor table) = .ok emitted ∧
    List.Forall₂ (EmittedRoute.Emits (Binding.stubsFor table)) table.routes emitted.routes ∧
    ∀ route ∈ emitted.routes, ∀ request, route.handler request =
      .ok (.obj [("action", .str route.handlerKey.action),
        ("section", .str (route.handlerKey.resource.getD route.handlerKey.kind.text))])

variable {table : RouteTable} {binding : Binding} {edits : List Binding.Edit} {key : HandlerKey}

theorem mem_unboundKeys :
    key ∈ table.unboundKeys binding ↔ key ∈ table.handlerKeys ∧ binding.get? key = none := by
  rw [unboundKeys, HandlerKey.mem_sortedDistinct, List.mem_filter]
  simp [Binding.contains]

/-- Emission fails with the keys that have no handler. -/
theorem unboundKeys_of_emit {fault : Fault} (fails : table.emit binding = .error fault) :
    fault = .unboundHandler table.moduleId (table.unboundKeys binding) := by
  unfold emit at fails
  split at fails
  · cases fails
  · cases fails
    rfl

theorem handler_of_emits_stubs {route : Route} {emitted : EmittedRoute}
    (member : route.handlerKey ∈ table.handlerKeys)
    (emits : emitted.Emits (Binding.stubsFor table) route) (request : Json) :
    emitted.handler request = .ok (Binding.stubAnswer emitted.handlerKey) := by
  have bound := emits.handler
  rw [Binding.get?_stubsFor, if_pos member] at bound
  rw [← Option.some.inj bound, emits.handlerKey]
  rfl

/-- **Emission is all or nothing.** Whatever edits a binding went through, a table is emitted with
it exactly when each key of the table has a handler; then every route has the handler of its key, in
order, and otherwise the keys without a handler are listed in ascending order and once. With the
table's own placeholders it is always emitted. -/
theorem emitsWholly_of_run (ran : Binding.run edits = .ok binding) (table : RouteTable) :
    table.EmitsWholly edits binding := by
  refine ⟨Binding.get?_of_run ran, ⟨?_, ?_⟩, fun emitted => emits_of_emit, ?_, ?_⟩
  · rintro ⟨emitted, emits⟩ key member
    obtain ⟨route, inTable, rfl⟩ := List.mem_map.mp member
    obtain ⟨_, _, routes⟩ := emits_of_emit emits
    obtain ⟨_, _, emitsRoute⟩ := Places.exists_of_mem_forall₂ routes.flip inTable
    rw [emitsRoute.handler]
    rfl
  · intro bound
    exact exists_emit_eq_ok fun route member => bound _ (List.mem_map_of_mem member)
  · intro fault fails
    exact ⟨_, unboundKeys_of_emit fails, HandlerKey.pairwise_sortedDistinct _,
      fun key => mem_unboundKeys⟩
  · obtain ⟨emitted, emits⟩ := exists_emit_stubsFor table
    obtain ⟨_, _, routes⟩ := emits_of_emit emits
    refine ⟨emitted, emits, routes, fun route member request => ?_⟩
    obtain ⟨original, inTable, emitsRoute⟩ := Places.exists_of_mem_forall₂ routes member
    exact handler_of_emits_stubs (List.mem_map_of_mem inTable) emitsRoute request

/-- A table with two routes under one key. -/
def doubled : RouteTable where
  moduleId := "restock"
  theme := ""
  mount := "/api/restock"
  routes :=
    [⟨"/rules", .get, ⟨"restock", .resource, some "rules", "list"⟩, none⟩,
      ⟨"/health", .get, ⟨"restock", .utilities, none, "health"⟩, none⟩,
      ⟨"/rules/list", .get, ⟨"restock", .resource, some "rules", "list"⟩, some "rules"⟩]

/-- A history of every kind of edit, in which keys are bound, taken out and bound again. -/
def editsOfDoubled : List Binding.Edit :=
  [.insert ⟨"restock", .settings, none, "get"⟩ .echo, .renew, .placeholders doubled,
    .erase ⟨"restock", .utilities, none, "health"⟩,
    .declared [("restock/utilities/sync", .echo), ("restock/utilities/health", .echo)],
    .insert ⟨"restock", .resource, some "rules", "list"⟩ (.constant .null),
    .erase ⟨"restock", .utilities, none, "sync"⟩]

theorem emitsWholly_doubled : ∃ binding, Binding.run editsOfDoubled = .ok binding ∧
    doubled.EmitsWholly editsOfDoubled binding := by
  obtain ⟨binding, ran⟩ :=
    Outcome.exists_eq_ok (by decide +kernel : (Binding.run editsOfDoubled).isOk = true)
  exact ⟨binding, ran, emitsWholly_of_run ran doubled⟩

end RouteTable

end ModuleRoutes
