import Mathlib.Data.List.Dedup
import ModuleRoutes.Handler.Binding
import ModuleRoutes.Proofs.Places

/-!
# Bindings of many keys

A binding made by binding keys one after the other holds each of them once, so that its size is the
number of different keys (`ModuleRoutes.Binding.size_stubsFor`), and keys that are all different
keep the handlers they were bound to (`ModuleRoutes.Binding.get?_ofPairs`).
-/

namespace ModuleRoutes

namespace Binding

/-- The keys of a binding as they are held. -/
def heldKeys (binding : Binding) : List HandlerKey := binding.entries.map Prod.fst

/-- The binding of keys to handlers, one after the other. -/
def ofPairs (pairs : List (HandlerKey × Handler)) : Binding :=
  pairs.foldl (fun binding pair => binding.insert pair.1 pair.2) empty

variable {binding : Binding} {key other : HandlerKey} {handler : Handler}

theorem get?_insert_self : (binding.insert key handler).get? key = some handler :=
  List.lookup_cons_self

theorem get?_erase_of_ne (different : other ≠ key) :
    (binding.erase key).get? other = binding.get? other :=
  Places.lookup_filter_of_ne different

theorem get?_erase_self : (binding.erase key).get? key = none := by
  rw [get?, List.lookup_eq_none_iff]
  intro entry member
  simpa using Ne.symm (by simpa using (List.mem_filter.mp member).2)

theorem get?_insert_of_ne (different : other ≠ key) :
    (binding.insert key handler).get? other = binding.get? other := by
  have passed : (other == key) = false := by simpa using different
  rw [get?, insert, List.lookup_cons, passed]
  exact get?_erase_of_ne different

/-- What another binding has a handler for, it decides. -/
theorem get?_extend {added : Binding} :
    (binding.extend added).get? key = (added.get? key).or (binding.get? key) := by
  unfold extend
  rw [get?, get?, get?]
  generalize added.entries = entries
  induction entries with
  | nil => rfl
  | cons entry entries ih =>
      rw [List.foldr_cons, List.lookup_cons]
      by_cases same : key = entry.1
      · rw [same, beq_self_eq_true, Option.some_or]
        exact get?_insert_self
      · have passed : (key == entry.1) = false := by simpa using same
        rw [passed]
        exact (get?_insert_of_ne same).trans ih

/-- Of keys that are bound one after the other each has the handler of its own. -/
theorem get?_foldl_insert {keys : List HandlerKey} {handlerOf : HandlerKey → Handler} :
    (keys.foldl (fun binding key => binding.insert key (handlerOf key)) binding).get? key =
      if key ∈ keys then some (handlerOf key) else binding.get? key := by
  induction keys generalizing binding with
  | nil => rfl
  | cons next keys ih =>
      rw [List.foldl_cons, ih]
      by_cases later : key ∈ keys
      · rw [if_pos later, if_pos (List.mem_cons_of_mem _ later)]
      · by_cases same : key = next
        · rw [if_neg later, same, if_pos List.mem_cons_self, get?_insert_self]
        · rw [if_neg later, if_neg (by simp [same, later]), get?_insert_of_ne same]

/-- The keys of a table have its placeholders, and no other key has one. -/
theorem get?_stubsFor {table : RouteTable} :
    (stubsFor table).get? key =
      if key ∈ table.handlerKeys then some (Handler.constant (stubAnswer key)) else none :=
  get?_foldl_insert

theorem heldKeys_insert :
    (binding.insert key handler).heldKeys =
      key :: binding.heldKeys.filter fun held => held ≠ key := by
  simp only [heldKeys, insert, erase, List.map_cons, List.filter_map]
  rfl

/-- Binding keys one after the other holds these keys and those held before, each once. -/
theorem heldKeys_foldl_insert {pairs : List (HandlerKey × Handler)}
    (distinct : binding.heldKeys.Nodup) :
    (pairs.foldl (fun binding pair => binding.insert pair.1 pair.2) binding).heldKeys.Nodup ∧
      ∀ key, key ∈ (pairs.foldl (fun binding pair =>
          binding.insert pair.1 pair.2) binding).heldKeys ↔
        key ∈ binding.heldKeys ∨ key ∈ pairs.map Prod.fst := by
  induction pairs generalizing binding with
  | nil => exact ⟨distinct, fun key => by simp⟩
  | cons pair pairs ih =>
      have inserted : (binding.insert pair.1 pair.2).heldKeys.Nodup := by
        rw [heldKeys_insert, List.nodup_cons]
        exact ⟨by simp, distinct.filter _⟩
      obtain ⟨nodup, held⟩ := ih inserted
      refine ⟨nodup, fun key => ?_⟩
      rw [List.foldl_cons, held, heldKeys_insert, List.map_cons, List.mem_cons, List.mem_cons,
        List.mem_filter]
      by_cases same : key = pair.1 <;> simp [same]

theorem size_ofPairs (pairs : List (HandlerKey × Handler)) :
    (ofPairs pairs).size = (pairs.map Prod.fst).dedup.length := by
  obtain ⟨nodup, held⟩ := @heldKeys_foldl_insert empty pairs List.nodup_nil
  have order : (ofPairs pairs).heldKeys.Perm (pairs.map Prod.fst).dedup := by
    refine (List.perm_ext_iff_of_nodup nodup (List.nodup_dedup _)).mpr fun key => ?_
    rw [List.mem_dedup]
    exact (held key).trans (by simp [heldKeys, empty])
  rw [← order.length_eq, heldKeys, List.length_map, size]

theorem get?_foldl_insert_of_not_mem {pairs : List (HandlerKey × Handler)}
    (absent : key ∉ pairs.map Prod.fst) :
    (pairs.foldl (fun binding pair => binding.insert pair.1 pair.2) binding).get? key =
      binding.get? key := by
  induction pairs generalizing binding with
  | nil => rfl
  | cons pair pairs ih =>
      rw [List.map_cons, List.mem_cons, not_or] at absent
      rw [List.foldl_cons, ih absent.2, get?_insert_of_ne absent.1]

/-- Keys that are all different keep the handlers they were bound to. -/
theorem get?_ofPairs {pairs : List (HandlerKey × Handler)} (distinct : (pairs.map Prod.fst).Nodup)
    (member : (key, handler) ∈ pairs) : (ofPairs pairs).get? key = some handler := by
  unfold ofPairs
  generalize empty = binding
  induction pairs generalizing binding with
  | nil => cases member
  | cons first pairs ih =>
      rw [List.map_cons, List.nodup_cons] at distinct
      rcases List.mem_cons.mp member with rfl | later
      · rw [List.foldl_cons, get?_foldl_insert_of_not_mem distinct.1, get?_insert_self]
      · exact ih distinct.2 later _

theorem size_stubsFor (table : RouteTable) :
    (stubsFor table).size = table.handlerKeys.dedup.length := by
  have pairs : stubsFor table =
      ofPairs (table.handlerKeys.map fun key => (key, Handler.constant (stubAnswer key))) := by
    rw [stubsFor, ofPairs, List.foldl_map]
  rw [pairs, size_ofPairs, List.map_map]
  exact congrArg (fun keys => (List.dedup keys).length) (List.map_id table.handlerKeys)

/-- A table has a placeholder for each of its routes when the keys of the routes are all different.
-/
theorem size_stubsFor_eq_iff (table : RouteTable) :
    (stubsFor table).size = table.routes.length ↔ table.handlerKeys.Nodup := by
  have keys : table.handlerKeys.length = table.routes.length := List.length_map _
  rw [size_stubsFor, ← keys, ← List.dedup_eq_self]
  exact ⟨(List.dedup_sublist _).eq_of_length, fun same => by rw [same]⟩

theorem getElem?_handlerKeys (table : RouteTable) (index : Nat) :
    table.handlerKeys[index]? = table.routes[index]?.map Route.handlerKey := List.getElem?_map

/-- The routes of a table can all be bound to handlers of their own when their keys are all
different. -/
theorem forall_exists_binding_iff (table : RouteTable) :
    (∀ assign : Nat → Handler, ∃ binding : Binding, ∀ index route,
      table.routes[index]? = some route →
        binding.get? route.handlerKey = some (assign index)) ↔ table.handlerKeys.Nodup := by
  constructor
  · intro bindable
    obtain ⟨binding, bound⟩ := bindable fun index => Handler.constant (.int index)
    rw [List.nodup_iff_getElem?_ne_getElem?]
    intro left right before inside same
    have count : table.handlerKeys.length = table.routes.length := List.length_map _
    obtain ⟨first, atLeft⟩ : ∃ route, table.routes[left]? = some route :=
      ⟨_, List.getElem?_eq_getElem (by omega)⟩
    obtain ⟨second, atRight⟩ : ∃ route, table.routes[right]? = some route :=
      ⟨_, List.getElem?_eq_getElem (by omega)⟩
    rw [getElem?_handlerKeys, getElem?_handlerKeys, atLeft, atRight] at same
    have key : first.handlerKey = second.handlerKey := Option.some.inj same
    have answers := bound left first atLeft
    rw [key, bound right second atRight] at answers
    have numbers := congrFun (Option.some.inj answers) .null
    simp only [Handler.constant, Except.ok.injEq, Json.int.injEq] at numbers
    omega
  · intro distinct assign
    refine ⟨ofPairs (table.handlerKeys.zipIdx.map fun pair => (pair.1, assign pair.2)), ?_⟩
    intro index route found
    have keys : (table.handlerKeys.zipIdx.map fun pair => (pair.1, assign pair.2)).map Prod.fst =
        table.handlerKeys := by
      rw [List.map_map]
      exact List.zipIdx_map_fst 0 _
    have keyFound : table.handlerKeys[index]? = some route.handlerKey := by
      rw [getElem?_handlerKeys, found]
      rfl
    refine get?_ofPairs (by rwa [keys]) (List.mem_map.mpr ⟨(route.handlerKey, index), ?_, rfl⟩)
    exact List.mem_zipIdx_iff_getElem?.mpr keyFound

end Binding

end ModuleRoutes
