import ModuleRoutes.Proofs.Definition.NormalForm
import ModuleRoutes.Proofs.Section.Endpoints

/-!
# Collisions

Once every slot has its routes, the only way left for a definition to be refused is that two routes
fall on one method and path. The pair that is reported is then the earliest one, and its routes come
from different slots, as those of one section never collide
(`ModuleRoutes.Compiler.collisions_of_compile`).
-/

namespace ModuleRoutes

/-- `second` is the earliest item of a list that has the key of an item before it, and `first` is
the only item before it with this key. -/
def EarliestRepeat {α β : Type} (key : α → β) (items : List α) (first second : α) : Prop :=
  ∃ before between after, items = before ++ first :: (between ++ second :: after) ∧
    key first = key second ∧ (∀ item ∈ before ++ between, key item ≠ key second) ∧
    ((before ++ first :: between).map key).Nodup

namespace EarliestRepeat

variable {α β γ : Type} {key : α → β} {items : List α} {first second : α}

theorem key_eq (repeats : EarliestRepeat key items first second) : key first = key second := by
  obtain ⟨_, _, _, _, same, _⟩ := repeats
  exact same

/-- What repeats among the images of items repeats among the items. -/
theorem exists_of_map {f : γ → α} {sources : List γ}
    (repeats : EarliestRepeat key (sources.map f) first second) :
    ∃ source other, f source = first ∧ f other = second ∧
      EarliestRepeat (fun item => key (f item)) sources source other := by
  obtain ⟨before, between, after, whole, same, only, distinct⟩ := repeats
  obtain ⟨start, _, rfl, rfl, fromFirst⟩ := List.map_eq_append_iff.mp whole
  obtain ⟨source, _, rfl, rfl, behindFirst⟩ := List.map_eq_cons_iff.mp fromFirst
  obtain ⟨middle, _, rfl, rfl, fromSecond⟩ := List.map_eq_append_iff.mp behindFirst
  obtain ⟨other, rest, rfl, rfl, rfl⟩ := List.map_eq_cons_iff.mp fromSecond
  refine ⟨source, other, rfl, rfl, start, middle, rest, rfl, same, ?_, ?_⟩
  · rw [← List.map_append] at only
    exact fun item member => only (f item) (List.mem_map_of_mem member)
  · rwa [← List.map_cons, ← List.map_append, List.map_map] at distinct

/-- Two items whose other keys are all different differ in such a key. -/
theorem ne_of_nodup {other : α → γ} (repeats : EarliestRepeat key items first second)
    (distinct : (items.map other).Nodup) : other first ≠ other second := by
  obtain ⟨before, between, after, rfl, -⟩ := repeats
  rw [List.map_append, List.map_cons, List.map_append, List.map_cons] at distinct
  have rest := (List.nodup_append.mp distinct).2.1
  intro same
  refine (List.nodup_cons.mp rest).1 ?_
  rw [same]
  exact List.mem_append_right _ List.mem_cons_self

end EarliestRepeat

namespace Definition

/-- Every slot of a definition has a section whose routes are made. -/
def Generates (normal : Definition) (blocks : Slot → List Route) : Prop :=
  ∀ slot, ∃ part, normal.findSection? slot = some part ∧
    part.routes normal.moduleId = .ok (blocks slot)

/-- The routes of all slots in order, each with its slot. -/
def placed (blocks : Slot → List Route) : List (Slot × Route) :=
  Slot.all.flatMap fun slot => (blocks slot).map (Prod.mk slot)

variable {definition normal : Definition} {blocks : Slot → List Route}

theorem map_snd_placed : (placed blocks).map Prod.snd = Slot.all.flatMap blocks := by
  rw [placed, List.map_flatMap]
  refine List.flatMap_congr fun slot _ => ?_
  rw [List.map_map]
  exact List.map_id' _

/-- Routes that do not collide within their slots differ in the slot or in the endpoint. -/
theorem nodup_placed (apart : ∀ slot, ((blocks slot).map Route.endpoint).Nodup) :
    ((placed blocks).map fun entry => (entry.1, entry.2.endpoint)).Nodup := by
  rw [placed, List.map_flatMap, List.nodup_flatMap]
  refine ⟨fun slot _ => ?_, Slot.nodup_all.imp fun {slot other} different => ?_⟩
  · have tagged : ((blocks slot).map (Prod.mk slot)).map
        (fun entry => (entry.1, entry.2.endpoint)) =
          ((blocks slot).map Route.endpoint).map (Prod.mk slot) := by
      rw [List.map_map, List.map_map]
      rfl
    rw [tagged]
    exact (apart slot).map fun _ _ same => (Prod.mk.inj same).2
  · intro entry inSlot inOther
    simp only [List.map_map, List.mem_map] at inSlot inOther
    obtain ⟨_, _, rfl⟩ := inSlot
    obtain ⟨_, _, same⟩ := inOther
    exact different (Prod.mk.inj same).1.symm

/-- The routes of one slot of a normal form do not collide. -/
theorem nodup_endpoints_of_generates (normalized : definition.normalize = .ok normal)
    (filled : normal.SlotsFilled) (generated : normal.Generates blocks) (slot : Slot) :
    ((blocks slot).map Route.endpoint).Nodup := by
  obtain ⟨part, found, routes⟩ := generated slot
  have member := (filled.findSection?_eq_some_iff.mp found).1
  have named := filled.noun_isSome member
  obtain ⟨keeps, laid⟩ := (Section.routes_eq_ok_iff named).mp routes
  have normalPart := (tokens_of_normalize normalized).2 part member
  rw [laid]
  exact (Section.layout_endpoints_perm _ keeps.distinctNames).nodup_iff.mpr
    (Section.nodup_endpoints keeps normalPart named)

end Definition

namespace Compiler

open Definition

variable {definition normal : Definition} {blocks : Slot → List Route}
  {seen routes : List Route} {first second : Route}

/-- The scan for collisions carries the routes before, no two of them on one method and path, and
stops at the first route that falls on the endpoint of one of them. -/
theorem earliestRepeat_of_firstCollision? (distinct : (seen.map Route.endpoint).Nodup)
    (found : firstCollision? seen routes = some (first, second)) :
    EarliestRepeat Route.endpoint (seen.reverse ++ routes) first second := by
  induction routes generalizing seen with
  | nil => cases found
  | cons route routes ih =>
      unfold firstCollision? at found
      cases collision : seen.find? fun earlier => earlier.endpoint = route.endpoint with
      | some earlier =>
          rw [collision] at found
          obtain ⟨rfl, rfl⟩ := Prod.mk.inj (Option.some.inj found)
          have same : earlier.endpoint = route.endpoint := by simpa using List.find?_some collision
          have inSeen := List.mem_reverse.mpr (List.mem_of_find?_eq_some collision)
          obtain ⟨before, between, split⟩ := List.append_of_mem inSeen
          have reversed : (seen.reverse.map Route.endpoint).Nodup := by
            rw [List.map_reverse, List.nodup_reverse]
            exact distinct
          rw [split] at reversed ⊢
          refine ⟨before, between, routes, by simp, same, fun item member => ?_, reversed⟩
          rw [List.map_append, List.map_cons, List.nodup_middle, List.nodup_cons,
            ← List.map_append] at reversed
          intro equal
          exact reversed.1 (List.mem_map.mpr ⟨item, member, equal.trans same.symm⟩)
      | none =>
          rw [collision] at found
          have fresh : ∀ earlier ∈ seen, earlier.endpoint ≠ route.endpoint := by
            simpa using List.find?_eq_none.mp collision
          have extended : ((route :: seen).map Route.endpoint).Nodup := by
            rw [List.map_cons, List.nodup_cons, List.mem_map]
            refine ⟨?_, distinct⟩
            rintro ⟨earlier, inSeen, same⟩
            exact fresh earlier inSeen same
          have later := ih extended found
          rwa [List.reverse_cons, List.append_assoc, List.singleton_append] at later

theorem slotRoutes_of_generates (generated : normal.Generates blocks) :
    slotRoutes normal = .ok (Slot.all.flatMap blocks) := by
  unfold slotRoutes
  rw [Outcome.bind_eq_ok_iff]
  refine ⟨Slot.all.map blocks, Outcome.mapM_eq_ok_iff.mpr ?_, rfl⟩
  rw [List.forall₂_map_right_iff, List.forall₂_same]
  intro slot _
  obtain ⟨part, found, routes⟩ := generated slot
  rw [found]
  exact routes

/-- Once all routes are made, only a collision keeps a definition from its table. -/
theorem compile_of_generates (compiler : Compiler) (normalized : definition.normalize = .ok normal)
    (valid : normal.validateSlots = .ok ()) (generated : normal.Generates blocks) :
    compiler.compile definition =
      match firstCollision? [] (Slot.all.flatMap blocks) with
      | some (first, second) => .error (.inModule normal.moduleId (.routeCollision first second))
      | none => .ok ⟨normal.moduleId, normal.theme, compiler.mountOf normal,
          Slot.all.flatMap blocks⟩ := by
  have bare : compiler.compileBare definition =
      match firstCollision? [] (Slot.all.flatMap blocks) with
      | some (first, second) => .error (.routeCollision first second)
      | none => .ok ⟨normal.moduleId, normal.theme, compiler.mountOf normal,
          Slot.all.flatMap blocks⟩ := by
    unfold compileBare
    simp only [normalized, valid, slotRoutes_of_generates generated, bind, Except.bind]
    rfl
  rw [compile, bare, Definition.faultModuleId_of_normalize normalized]
  split <;> rfl

theorem not_nodup_endpoints_iff : ¬(routes.map Route.endpoint).Nodup ↔
    ∃ (index otherIndex : Nat) (route other : Route), index < otherIndex ∧
      routes[index]? = some route ∧ routes[otherIndex]? = some other ∧
      route.endpoint = other.endpoint := by
  rw [List.nodup_iff_getElem?_ne_getElem?]
  push Not
  simp only [List.length_map, List.getElem?_map]
  constructor
  · rintro ⟨index, otherIndex, before, inside, same⟩
    have placed := List.getElem?_eq_getElem (Nat.lt_trans before inside)
    have otherPlaced := List.getElem?_eq_getElem inside
    rw [placed, otherPlaced] at same
    exact ⟨index, otherIndex, _, _, before, placed, otherPlaced, Option.some.inj same⟩
  · rintro ⟨index, otherIndex, route, other, before, placed, otherPlaced, same⟩
    refine ⟨index, otherIndex, before, (List.getElem?_eq_some_iff.mp otherPlaced).1, ?_⟩
    rw [placed, otherPlaced, Option.map_some, Option.map_some, same]

/-- **Collisions.** For a definition whose normal form fills its slots, with routes for each of
them, compilation fails with a collision exactly when two of the routes fall on one method and path,
and with nothing else. The second route of the fault is the earliest one on the endpoint of a route
before it, the first is that route, and the two are routes of different slots; those of one slot all
fall on different endpoints. -/
theorem collisions_of_compile (compiler : Compiler) {definition normal : Definition}
    {blocks : Slot → List Route} (normalized : definition.normalize = .ok normal)
    (valid : normal.validateSlots = .ok ()) (generated : normal.Generates blocks) :
    ((∃ first second, compiler.compile definition =
        .error (.inModule normal.moduleId (.routeCollision first second))) ↔
      ∃ (index otherIndex : Nat) (route other : Route), index < otherIndex ∧
        (Slot.all.flatMap blocks)[index]? = some route ∧
        (Slot.all.flatMap blocks)[otherIndex]? = some other ∧ route.endpoint = other.endpoint) ∧
    (∀ fault, compiler.compile definition = .error fault →
      ∃ (slot otherSlot : Slot) (first second : Route),
        fault = .inModule normal.moduleId (.routeCollision first second) ∧ slot ≠ otherSlot ∧
        EarliestRepeat (fun entry => entry.2.endpoint) (placed blocks) (slot, first)
          (otherSlot, second)) ∧
    ∀ slot, ((blocks slot).map Route.endpoint).Nodup := by
  have filled := validateSlots_eq_ok_iff.mp valid
  have apart := nodup_endpoints_of_generates normalized filled generated
  have outcome := compile_of_generates compiler normalized valid generated
  refine ⟨?_, fun fault refused => ?_, apart⟩
  · rw [outcome, ← not_nodup_endpoints_iff]
    have clear : firstCollision? [] (Slot.all.flatMap blocks) = none ↔
        ((Slot.all.flatMap blocks).map Route.endpoint).Nodup := by
      simp [firstCollision?_eq_none_iff]
    rw [← clear]
    cases firstCollision? [] (Slot.all.flatMap blocks) with
    | none => simp
    | some pair => simp
  · rw [outcome] at refused
    split at refused
    · next first second found =>
      obtain rfl := Except.error.inj refused
      have repeats := earliestRepeat_of_firstCollision? (by simp) found
      rw [List.reverse_nil, List.nil_append, ← map_snd_placed] at repeats
      obtain ⟨⟨slot, _⟩, ⟨otherSlot, _⟩, rfl, rfl, entries⟩ := repeats.exists_of_map
      refine ⟨slot, otherSlot, _, _, rfl, fun same => ?_, entries⟩
      exact entries.ne_of_nodup (nodup_placed apart) (Prod.ext same entries.key_eq)
    · cases refused

/-- A template whose first two resources have one noun. -/
def twiceViews : Definition := Definition.template "m" "views" "views" "renders"

theorem collisions_twiceViews : twiceViews.normalize = .ok twiceViews ∧
    twiceViews.validateSlots = .ok () ∧ twiceViews.Generates twiceViews.blockOf ∧
    ∃ (slot otherSlot : Slot) (first second : Route),
      default.compile twiceViews = .error (.inModule "m" (.routeCollision first second)) ∧
        slot ≠ otherSlot ∧ EarliestRepeat (fun entry => entry.2.endpoint)
          (placed twiceViews.blockOf) (slot, first) (otherSlot, second) := by
  have normalized : twiceViews.normalize = .ok twiceViews := by decide +kernel
  have valid : twiceViews.validateSlots = .ok () := by decide +kernel
  have generated : twiceViews.Generates twiceViews.blockOf := by
    intro slot
    cases slot <;> exact ⟨_, rfl, by decide +kernel⟩
  have refused : default.compile twiceViews = .error (.inModule "m" (.routeCollision
      ⟨"/views", .get, ⟨"m", .resource, some "views", "list"⟩, none⟩
      ⟨"/views", .get, ⟨"m", .resource, some "views", "list"⟩, none⟩)) := by decide +kernel
  obtain ⟨_, reported, _⟩ := collisions_of_compile default normalized valid generated
  obtain ⟨slot, otherSlot, first, second, same, different, repeats⟩ := reported _ refused
  exact ⟨normalized, valid, generated, slot, otherSlot, first, second,
    refused.trans (congrArg _ same), different, repeats⟩

end Compiler

end ModuleRoutes
