import ModuleRoutes.Proofs.Http.Pattern
import ModuleRoutes.Proofs.Outcome

/-!
# Adding to routers

A step that puts entries in places is repeated until an entry comes to a place that is taken
(`ModuleRoutes.Http.PutsIn.foldlM_eq_ok`, `ModuleRoutes.Http.PutsIn.foldlM_eq_error`). Adding paths
of modules to a router is such a step: it fails only where a method is added twice on one path, and
otherwise the router serves just what was added (`ModuleRoutes.Http.Router.addAll_eq_ok`,
`ModuleRoutes.Http.Router.addAll_eq_error`).
-/

namespace ModuleRoutes

namespace Http

/-- What a router is asked to serve: a method on a path, and what answers there. -/
structure Entry where
  path : String
  method : Method
  service : Service

namespace Entry

def place (entry : Entry) : String × Method := (entry.path, entry.method)

/-- An entry on the path of a module. -/
def IsStored (entry : Entry) : Prop := ∃ pattern, Http.IsStored entry.path pattern

end Entry

def Endpoint.entry (endpoint : Endpoint) : Entry :=
  ⟨endpoint.path, endpoint.method, endpoint.service⟩

/-! ## Putting in entries -/

/-- A step that puts the entry of an item into a state, unless an entry of the state is in its place
already. `Fits` says which items may be put in, `Holds` which entries a state has, in order. -/
structure PutsIn {σ ι : Type} (step : σ → ι → Except RouterFault σ) (put : ι → Entry)
    (Fits : ι → Prop) (Holds : σ → List Entry → Prop) : Prop where
  fresh : ∀ {state held item}, Holds state held → Fits item →
    (put item).place ∉ held.map Entry.place →
      ∃ next, step state item = .ok next ∧ Holds next (held ++ [put item])
  taken : ∀ {state held item}, Holds state held → Fits item →
    (put item).place ∈ held.map Entry.place →
      step state item = .error (.overlappingMethod (put item).path (put item).method)

namespace PutsIn

variable {σ ι : Type} {step : σ → ι → Except RouterFault σ} {put : ι → Entry} {Fits : ι → Prop}
  {Holds : σ → List Entry → Prop} {state : σ} {held : List Entry} {items : List ι}

/-- Items whose entries are in new places are all put in. -/
theorem foldlM_eq_ok (puts : PutsIn step put Fits Holds) (holds : Holds state held)
    (fit : ∀ item ∈ items, Fits item)
    (apart : ((held ++ items.map put).map Entry.place).Nodup) :
    ∃ next, items.foldlM step state = .ok next ∧ Holds next (held ++ items.map put) := by
  induction items generalizing state held with
  | nil => exact ⟨state, rfl, by rwa [List.map_nil, List.append_nil]⟩
  | cons item items ih =>
    obtain ⟨first, rest⟩ := List.forall_mem_cons.mp fit
    rw [List.map_cons] at apart ⊢
    have fresh : (put item).place ∉ held.map Entry.place := by
      rw [List.map_append] at apart
      exact fun taken =>
        (List.nodup_append.mp apart).2.2 _ taken _ (List.mem_map_of_mem List.mem_cons_self) rfl
    obtain ⟨next, stepped, nextHolds⟩ := puts.fresh holds first fresh
    rw [List.append_cons] at apart ⊢
    rw [List.foldlM_cons, stepped]
    exact ih nextHolds rest apart

/-- Where the entries of two items meet in one place, the later item is refused. -/
theorem foldlM_eq_error (puts : PutsIn step put Fits Holds) (holds : Holds state held)
    (fit : ∀ item ∈ items, Fits item) (before : (held.map Entry.place).Nodup)
    (meet : ¬((held ++ items.map put).map Entry.place).Nodup) :
    ∃ item ∈ items,
      List.Duplicate (put item).place ((held ++ items.map put).map Entry.place) ∧
        items.foldlM step state =
          .error (.overlappingMethod (put item).path (put item).method) := by
  induction items generalizing state held with
  | nil => exact absurd (by rwa [List.map_nil, List.append_nil]) meet
  | cons item items ih =>
    obtain ⟨first, rest⟩ := List.forall_mem_cons.mp fit
    rw [List.map_cons] at meet ⊢
    by_cases taken : (put item).place ∈ held.map Entry.place
    · refine ⟨item, List.mem_cons_self, ?_, ?_⟩
      · rw [List.duplicate_iff_sublist, List.map_append, List.map_cons]
        exact (List.singleton_sublist.mpr taken).append (List.nil_sublist _ |>.cons_cons _)
      · rw [List.foldlM_cons, puts.taken holds first taken]
        rfl
    · obtain ⟨next, stepped, nextHolds⟩ := puts.fresh holds first taken
      have stillApart : ((held ++ [put item]).map Entry.place).Nodup := by
        rw [List.map_append, List.map_singleton, ← List.concat_eq_append]
        exact before.concat taken
      rw [List.append_cons] at meet ⊢
      obtain ⟨later, member, duplicate, refused⟩ := ih nextHolds rest stillApart meet
      refine ⟨later, List.mem_cons_of_mem _ member, duplicate, ?_⟩
      rw [List.foldlM_cons, stepped]
      exact refused

end PutsIn

namespace Router

def entries (router : Router) : List Entry := router.endpoints.map Endpoint.entry

/-- A router whose endpoints are all on paths of modules. -/
def IsSound (router : Router) : Prop :=
  ∀ endpoint ∈ router.endpoints, IsStored endpoint.path endpoint.pattern

/-- A router with some entries added one after the other. -/
def addAll (router : Router) (entries : List Entry) : Except RouterFault Router :=
  entries.foldlM (fun router entry => router.add entry.path entry.method entry.service) router

theorem isSound_empty : empty.IsSound := nofun

variable {router : Router} {entry : Entry} {entries : List Entry}

/-! ## Adding to routers -/

theorem any_place_eq : (router.endpoints.any fun other =>
    other.path = entry.path && other.method = entry.method) =
      decide (entry.place ∈ router.entries.map Entry.place) := by
  rw [Bool.eq_iff_iff, List.any_eq_true, decide_eq_true_iff]
  simp only [entries, List.map_map, List.mem_map, Bool.and_eq_true, decide_eq_true_eq,
    Function.comp_apply, Endpoint.entry, Entry.place, Prod.mk.injEq]

/-- A path of a module can be added unless its method is there already: paths of modules are never
malformed, and never in conflict. -/
theorem add_eq {pattern : Pattern} (sound : router.IsSound)
    (stored : IsStored entry.path pattern) :
    router.add entry.path entry.method entry.service =
      if entry.place ∈ router.entries.map Entry.place then
        .error (.overlappingMethod entry.path entry.method)
      else .ok ⟨router.endpoints ++ [⟨entry.path, pattern, entry.method, entry.service⟩]⟩ := by
  have noConflict : (router.endpoints.any fun other =>
      other.path ≠ entry.path && other.pattern.conflicts pattern) = false := by
    rw [List.any_eq_false]
    intro other member both
    rw [Bool.and_eq_true, decide_eq_true_eq] at both
    exact both.1 (stored.path_eq_of_conflicts (sound other member) both.2)
  rw [add, stored.allowed, stored.read]
  simp only [Bool.not_true, Bool.false_eq_true, if_false, any_place_eq, noConflict,
    decide_eq_true_eq]

theorem addAll_append (first second : List Entry) :
    router.addAll (first ++ second) = router.addAll first >>= fun next => next.addAll second :=
  List.foldlM_append

/-- Adding to a router puts in entries on paths of modules. -/
theorem putsIn_add :
    PutsIn (fun (router : Router) entry => router.add entry.path entry.method entry.service) id
      Entry.IsStored fun router held => router.IsSound ∧ router.entries = held where
  fresh := by
    rintro router _ entry ⟨sound, rfl⟩ ⟨pattern, stored⟩ fresh
    refine ⟨_, (add_eq sound stored).trans (if_neg fresh), ?_, List.map_append⟩
    intro endpoint member
    rcases List.mem_append.mp member with before | added
    · exact sound endpoint before
    · rw [List.mem_singleton.mp added]
      exact stored
  taken := by
    rintro router _ entry ⟨sound, rfl⟩ ⟨pattern, stored⟩ taken
    exact (add_eq sound stored).trans (if_pos taken)

/-- Entries in new places are all added. -/
theorem addAll_eq_ok (sound : router.IsSound) (stored : ∀ entry ∈ entries, entry.IsStored)
    (apart : ((router.entries ++ entries).map Entry.place).Nodup) :
    ∃ next, router.addAll entries = .ok next ∧ next.IsSound ∧
      next.entries = router.entries ++ entries := by
  have added := putsIn_add.foldlM_eq_ok ⟨sound, rfl⟩ stored
  rw [List.map_id] at added
  exact added apart

/-- Where two entries meet in one place, the later one is refused. -/
theorem addAll_eq_error (sound : router.IsSound) (stored : ∀ entry ∈ entries, entry.IsStored)
    (before : (router.entries.map Entry.place).Nodup)
    (meet : ¬((router.entries ++ entries).map Entry.place).Nodup) :
    ∃ entry ∈ entries,
      List.Duplicate entry.place ((router.entries ++ entries).map Entry.place) ∧
        router.addAll entries = .error (.overlappingMethod entry.path entry.method) := by
  have refused := putsIn_add.foldlM_eq_error ⟨sound, rfl⟩ stored before
  rw [List.map_id] at refused
  exact refused meet

end Router

end Http

end ModuleRoutes
