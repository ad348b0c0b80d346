import Mathlib.Data.List.Duplicate
import Mathlib.Data.List.Forall2
import Mathlib.Data.List.Induction
import Mathlib.Data.List.Nodup

/-!
# Lists place by place and key by key

Listing by place, relations between the items in the same places of two lists, and lists cut up by a
key of their items.
-/

namespace ModuleRoutes

namespace Places

variable {α β γ : Type}

/-- Where places do not matter, listing by place is mapping. -/
theorem mapIdx_eq_map {f : Nat → α → β} {g : α → β} {items : List α}
    (placeless : ∀ index item, f index item = g item) : items.mapIdx f = items.map g := by
  rw [List.mapIdx_eq_iff]
  intro index
  rw [List.getElem?_map, funext (placeless index)]

theorem map_mapIdx (f : β → γ) (g : Nat → α → β) (items : List α) :
    (items.mapIdx g).map f = items.mapIdx fun index item => f (g index item) := by
  rw [eq_comm, List.mapIdx_eq_iff]
  intro index
  rw [List.getElem?_map, List.getElem?_mapIdx, Option.map_map]
  rfl

theorem forall₂_mapIdx {related : α → β → Prop} {f : Nat → α → β} {items : List α}
    (each : ∀ item ∈ items, ∀ index, related item (f index item)) :
    List.Forall₂ related items (items.mapIdx f) := by
  induction items generalizing f with
  | nil => exact .nil
  | cons item items ih =>
      rw [List.mapIdx_cons]
      refine .cons (each item List.mem_cons_self 0) (ih ?_)
      intro other member index
      exact each other (List.mem_cons_of_mem _ member) (index + 1)

/-- A partial function that gives each item a related result keeps the places. -/
theorem forall₂_filterMap {related : α → β → Prop} {f : α → Option β} {items : List α}
    (each : ∀ item ∈ items, ∃ result, f item = some result ∧ related item result) :
    List.Forall₂ related items (items.filterMap f) := by
  induction items with
  | nil => exact .nil
  | cons item items ih =>
      obtain ⟨⟨result, found, atItem⟩, rest⟩ := List.forall_mem_cons.mp each
      rw [List.filterMap_cons_some found]
      exact .cons atItem (ih rest)

/-- Of two lists related place by place, every item of the second has its partner in the first. -/
theorem exists_of_mem_forall₂ {related : α → β → Prop} {items : List α} {results : List β}
    (pointwise : List.Forall₂ related items results) {result : β} (member : result ∈ results) :
    ∃ item ∈ items, related item result := by
  induction pointwise with
  | nil => cases member
  | cons atItem _ ih =>
      rcases List.mem_cons.mp member with rfl | later
      · exact ⟨_, List.mem_cons_self, atItem⟩
      · obtain ⟨item, inItems, found⟩ := ih later
        exact ⟨item, List.mem_cons_of_mem _ inItems, found⟩

/-- Two lists related place by place have the same values where related items do. -/
theorem map_eq_map_of_forall₂ {related : α → β → Prop} {f : α → γ} {g : β → γ} {items : List α}
    {results : List β} (pointwise : List.Forall₂ related items results)
    (agree : ∀ item, ∀ result ∈ results, related item result → f item = g result) :
    items.map f = results.map g := by
  induction pointwise with
  | nil => rfl
  | cons atItem _ ih =>
      rw [List.map_cons, List.map_cons, agree _ _ List.mem_cons_self atItem,
        ih fun item result member => agree item result (List.mem_cons_of_mem _ member)]

/-! ## Keys -/

variable {κ : Type} [DecidableEq κ] {key : α → κ} {keys : List κ} {items : List α}

/-- The items with a key are among those without another key. -/
theorem filter_filter_key_ne {wanted other : κ} (apart : wanted ≠ other) :
    ((items.filter fun item => key item ≠ other).filter fun item => key item = wanted) =
      items.filter fun item => key item = wanted := by
  rw [List.filter_filter]
  refine List.filter_congr fun item _ => ?_
  by_cases same : key item = wanted
  · simp [same, apart]
  · simp [same]

theorem key_mem_of_mem_filter_ne {other : κ} (covered : ∀ item ∈ items, key item ∈ other :: keys) :
    ∀ item ∈ items.filter fun item => key item ≠ other, key item ∈ keys := by
  intro item member
  obtain ⟨inItems, apart⟩ := List.mem_filter.mp member
  exact (List.mem_cons.mp (covered item inItems)).resolve_left (of_decide_eq_true apart)

/-- A list taken key by key has the same items. -/
theorem flatMap_filter_perm (apart : keys.Nodup) (covered : ∀ item ∈ items, key item ∈ keys) :
    (keys.flatMap fun wanted => items.filter fun item => key item = wanted).Perm items := by
  induction keys generalizing items with
  | nil =>
      rw [List.eq_nil_iff_forall_not_mem.mpr fun item member => nomatch covered item member]
      exact .refl _
  | cons first keys ih =>
      obtain ⟨fresh, later⟩ := List.nodup_cons.mp apart
      have kept : ∀ wanted ∈ keys, ((items.filter fun item => key item ≠ first).filter
          fun item => key item = wanted) = items.filter fun item => key item = wanted :=
        fun wanted member => filter_filter_key_ne fun same => fresh (same ▸ member)
      have rest := ih later (key_mem_of_mem_filter_ne covered)
      rw [List.flatMap_congr kept] at rest
      rw [List.flatMap_cons]
      refine (rest.append_left _).trans ?_
      simpa using List.filter_append_perm (fun item => key item = first) items

/-- What occurs twice does so in every order. -/
theorem duplicate_of_perm {keys others : List κ} {repeated : κ} (order : keys.Perm others)
    (duplicate : List.Duplicate repeated keys) : List.Duplicate repeated others := by
  rw [List.duplicate_iff_two_le_count] at duplicate ⊢
  rwa [← order.count_eq]

theorem eraseDups_concat (keys : List κ) (wanted : κ) :
    (keys ++ [wanted]).eraseDups =
      if wanted ∈ keys then keys.eraseDups else keys.eraseDups ++ [wanted] := by
  rw [List.eraseDups_append]
  by_cases seen : wanted ∈ keys <;> simp [List.removeAll, List.eraseDups_cons, seen]

theorem eraseDups_map {f : κ → κ} (injective : Function.Injective f) (keys : List κ) :
    (keys.map f).eraseDups = keys.eraseDups.map f := by
  induction keys using List.reverseRecOn with
  | nil => rfl
  | append_singleton keys wanted ih =>
      rw [List.map_append, List.map_singleton, eraseDups_concat, eraseDups_concat, ih]
      simp only [List.mem_map_of_injective injective]
      split
      · rfl
      · rw [List.map_append, List.map_singleton]

theorem nodup_eraseDups (keys : List κ) : keys.eraseDups.Nodup := by
  induction keys using List.reverseRecOn with
  | nil => exact List.nodup_nil
  | append_singleton keys wanted ih =>
      rw [eraseDups_concat]
      split
      · exact ih
      · next fresh =>
        rw [← List.concat_eq_append]
        exact ih.concat (mt List.mem_eraseDups.mp fresh)

/-- What is held for a key does not change with what is held for another one. -/
theorem lookup_filter_of_ne [BEq κ] [LawfulBEq κ] {entries : List (κ × α)} {wanted other : κ}
    (apart : wanted ≠ other) :
    (entries.filter fun entry => entry.1 ≠ other).lookup wanted = entries.lookup wanted := by
  induction entries with
  | nil => rfl
  | cons entry entries ih =>
      obtain ⟨held, value⟩ := entry
      by_cases same : held = other
      · subst same
        rw [List.filter_cons_of_neg (by simp), ih, List.lookup_cons,
          beq_eq_false_iff_ne.mpr apart]
      · rw [List.filter_cons_of_pos (by simpa using same), List.lookup_cons, List.lookup_cons, ih]

end Places

end ModuleRoutes
