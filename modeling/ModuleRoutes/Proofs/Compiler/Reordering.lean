import ModuleRoutes.Proofs.Compiler.Acceptance
import ModuleRoutes.Proofs.Definition.Reordering

/-!
# The order of authoring

The order in which a definition lists its sections, and its resources their verbs, leaves no trace
in the table: every slot and every verb is looked up by its name, and each name is there once. So
reordered definitions are compiled to the same tables (`ModuleRoutes.Compiler.compile_reordering`).
-/

namespace ModuleRoutes

namespace Section

variable {part other : Section}

/-- Rearranged sections keep the same conventions. -/
theorem Rearranged.conventional (rearranged : part.Rearranged other) (keeps : part.Conventional) :
    other.Conventional := by
  have members := fun action => rearranged.actions.mem_iff (a := action)
  constructor
  case arity => rw [← rearranged.actions.length_eq, keeps.arity, rearranged.kind]
  case distinctNames => exact (rearranged.actions.map _).nodup_iff.mp keeps.distinctNames
  case patchFree => exact fun action member => keeps.patchFree action ((members action).mpr member)
  case kindRule =>
    have rule := keeps.kindRule
    unfold KindRule at rule ⊢
    rw [← rearranged.kind]
    cases kind : part.kind.kind with
    | settings =>
        rw [kind] at rule
        rw [← rearranged.inOrder (by simp [Slot.isResource, kind])]
        exact rule
    | dashboard | resource | analytics | utilities =>
        rw [kind] at rule
        exact fun action member => rule action ((members action).mpr member)
  case primaryVerbs =>
    intro primary verb required
    obtain ⟨action, member, named⟩ :=
      keeps.primaryVerbs (rearranged.kind.trans primary) verb required
    exact ⟨action, (members action).mp member, named⟩

/-- Rearranged sections in which each name is there once are laid out alike. -/
theorem Rearranged.layout_eq (rearranged : part.Rearranged other) (moduleId : String)
    (distinct : (part.actions.map Action.name).Nodup) :
    part.layout moduleId = other.layout moduleId := by
  have otherDistinct := (rearranged.actions.map _).nodup_iff.mp distinct
  have verbs : part.actionFor? = other.actionFor? := by
    funext verb
    refine Option.ext fun action => ?_
    rw [actionFor?_eq_some_iff distinct, actionFor?_eq_some_iff otherDistinct,
      rearranged.actions.mem_iff]
  have order : part.tableOrder = other.tableOrder := by
    unfold tableOrder
    rw [← rearranged.kind, verbs, rearranged.customs]
    split
    · rfl
    · next plain => exact rearranged.inOrder (by simpa using plain)
  -- Beyond the order of its actions, a section is laid out by its slot, its noun and its style.
  unfold layout
  rw [order]
  obtain ⟨kind, noun, style, actions⟩ := part
  obtain ⟨_, _, _, _⟩ := other
  obtain ⟨rfl, rfl, rfl, _, _, _⟩ := rearranged
  rfl

end Section

namespace Definition

variable {normal other : Definition} {arranged : List Section}

/-- Slots stay filled when sections are rearranged and put in another order. -/
theorem SlotsFilled.rearranged (filled : normal.SlotsFilled)
    (each : List.Forall₂ Section.Rearranged normal.sections arranged)
    (order : arranged.Perm other.sections) : other.SlotsFilled := by
  have kinds : normal.sections.map Section.kind = arranged.map Section.kind := by
    refine List.forall₂_eq_eq_eq ▸ ?_
    rw [List.forall₂_map_left_iff, List.forall₂_map_right_iff]
    exact each.imp fun _ _ rearranged => rearranged.kind
  constructor
  · intro slot
    rw [← filled.once slot, kinds]
    exact ((order.map Section.kind).count_eq slot).symm
  · intro part member
    obtain ⟨original, inSections, rearranged⟩ :=
      Places.exists_of_mem_forall₂ each (order.mem_iff.mpr member)
    rw [← rearranged.resourceName, ← rearranged.kind, filled.nouns original inSections]

/-- Rearranged sections in any order have the same layout, slot by slot. -/
theorem layout_eq_of_rearranged (filled : normal.SlotsFilled)
    (keeps : ∀ part ∈ normal.sections, part.Conventional)
    (each : List.Forall₂ Section.Rearranged normal.sections arranged)
    (order : arranged.Perm other.sections) (moduleId : other.moduleId = normal.moduleId) :
    other.layout = normal.layout := by
  have otherFilled := filled.rearranged each order
  refine List.flatMap_congr fun slot _ => ?_
  obtain ⟨part, found⟩ := otherFilled.exists_findSection? slot
  obtain ⟨member, rfl⟩ := otherFilled.findSection?_eq_some_iff.mp found
  obtain ⟨original, inSections, rearranged⟩ :=
    Places.exists_of_mem_forall₂ each (order.mem_iff.mpr member)
  have originalFound : normal.findSection? part.kind = some original :=
    filled.findSection?_eq_some_iff.mpr ⟨inSections, rearranged.kind⟩
  rw [blockOf, blockOf, found, originalFound, moduleId]
  exact (rearranged.layout_eq _ (keeps original inSections).distinctNames).symm

end Definition

namespace Compiler

variable {compiler : Compiler} {definition other : Definition} {table : RouteTable}

theorem compile_of_reordering (reordering : definition.Reordering other)
    (compiled : compiler.compile definition = .ok table) : compiler.compile other = .ok table := by
  obtain ⟨normal, normalized, filled, keeps, distinct, rfl⟩ := compile_eq_ok_iff.mp compiled
  obtain ⟨otherNormal, otherNormalized, moduleId, theme, mount, arranged, each, order⟩ :=
    reordering.exists_normalize normalized
  have sameLayout := Definition.layout_eq_of_rearranged filled keeps each order moduleId
  refine compile_eq_ok_iff.mpr ⟨otherNormal, otherNormalized, filled.rearranged each order, ?_, ?_,
    ?_⟩
  · intro part member
    obtain ⟨original, inSections, rearranged⟩ :=
      Places.exists_of_mem_forall₂ each (order.mem_iff.mpr member)
    exact rearranged.conventional (keeps original inSections)
  · rwa [sameLayout]
  · rw [sameLayout, mountOf, mountOf, moduleId, theme, mount]

/-- **Order of authoring.** Of two definitions with their sections in any order, and in resources
the actions in any order that keeps those that are no verbs, one is compiled to a table exactly when
the other is compiled to the same table, whatever the compiler's prefix. -/
theorem compile_reordering (reordering : definition.Reordering other) (compiler : Compiler)
    (table : RouteTable) :
    compiler.compile definition = .ok table ↔ compiler.compile other = .ok table :=
  ⟨compile_of_reordering reordering, compile_of_reordering reordering.symm⟩

/-- Two verbs under other names, two under their own, and two actions that are no verbs. -/
def authored : Definition :=
  (Definition.template "m" "listings" "tags" "audits").withActions .primaryResource
    [.onItem .post "Archive", .plain .get "all", .onItem .get "show", .plain .post "create",
      .onItem .put "update", .onItem .post "process"]

/-- The same actions with the verbs in other places, and all sections backwards. -/
def shuffled : Definition :=
  { authored with
    sections := (authored.withActions .primaryResource
      [.onItem .put "update", .onItem .get "show", .onItem .post "Archive",
        .onItem .post "process", .plain .get "all", .plain .post "create"]).sections.reverse }

theorem compile_shuffled : authored.Reordering shuffled ∧
    ∃ table, default.compile authored = .ok table ∧ default.compile shuffled = .ok table := by
  have reordering : authored.Reordering shuffled :=
    { moduleId := rfl
      theme := rfl
      mount := rfl
      nounStyle := rfl
      sections := ⟨_, by decide +kernel, (List.reverse_perm _).symm⟩ }
  obtain ⟨table, compiled⟩ :=
    Outcome.exists_eq_ok (by decide +kernel : (default.compile authored).isOk = true)
  exact ⟨reordering, table, compiled, (compile_reordering reordering default table).mp compiled⟩

end Compiler

end ModuleRoutes
