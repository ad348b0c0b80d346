import Mathlib.Data.List.Duplicate
import ModuleRoutes.Proofs.Handler.Binding
import ModuleRoutes.Proofs.HandlerKey
import ModuleRoutes.Proofs.Places

/-!
# Declared handlers

Handlers that are declared under texts of keys are bound one after the other. The run succeeds when
the texts are all different, and then binds each text's key to its handler and nothing else
(`ModuleRoutes.Binding.ofDeclared_eq_ok`); otherwise it fails at a text that is there twice
(`ModuleRoutes.Binding.ofDeclared_eq_error`).
-/

namespace ModuleRoutes

namespace Binding

/-- A binding with one more declared handler. -/
def declare (binding : Binding) (entry : String × Handler) : Except InvalidKey Binding := do
  let key ← HandlerKey.parse entry.1
  if binding.contains key then throw ⟨entry.1, .registeredTwice⟩
  else pure (binding.insert key entry.2)

theorem ofDeclared_eq_foldlM (declared : List (String × Handler)) :
    ofDeclared declared = declared.foldlM declare empty := rfl

/-- A declared handler that is bound under the key of its text. -/
structure Declares (entry : String × Handler) (pair : HandlerKey × Handler) : Prop where
  key : HandlerKey.parse entry.1 = .ok pair.1
  handler : pair.2 = entry.2

variable {binding : Binding} {entry : String × Handler} {pair : HandlerKey × Handler}
  {declared : List (String × Handler)} {pairs : List (HandlerKey × Handler)}

theorem contains_iff {key : HandlerKey} : binding.contains key = true ↔ key ∈ binding.heldKeys := by
  rw [contains, get?, List.lookup_isSome_iff, heldKeys, List.mem_map]
  exact exists_congr fun held => and_congr_right fun _ => beq_iff_eq.trans eq_comm

/-! ## One declared handler -/

theorem Declares.declare_eq_ok (declares : Declares entry pair)
    (fresh : pair.1 ∉ binding.heldKeys) :
    binding.declare entry = .ok (binding.insert pair.1 pair.2) := by
  have absent : ¬binding.contains pair.1 = true := mt contains_iff.mp fresh
  rw [declare, declares.key, declares.handler]
  exact if_neg absent

theorem Declares.declare_eq_error (declares : Declares entry pair)
    (held : pair.1 ∈ binding.heldKeys) :
    binding.declare entry = .error ⟨pair.1.text, .registeredTwice⟩ := by
  rw [declare, declares.key, HandlerKey.text_of_parse declares.key]
  exact if_pos (contains_iff.mpr held)

theorem heldKeys_insert_of_not_mem {key : HandlerKey} {handler : Handler}
    (fresh : key ∉ binding.heldKeys) :
    (binding.insert key handler).heldKeys = key :: binding.heldKeys := by
  rw [heldKeys_insert, List.filter_eq_self.mpr]
  exact fun held member => decide_eq_true fun same => fresh (same ▸ member)

/-! ## All declared handlers -/

/-- Handlers under new keys are all bound. -/
theorem foldlM_declare_eq_ok (declareAll : List.Forall₂ Declares declared pairs)
    (apart : (binding.heldKeys ++ pairs.map Prod.fst).Nodup) :
    declared.foldlM declare binding =
      .ok (pairs.foldl (fun binding pair => binding.insert pair.1 pair.2) binding) := by
  induction declareAll generalizing binding with
  | nil => rfl
  | @cons entry pair declared pairs atEntry _ ih =>
      rw [List.map_cons, List.perm_middle.nodup_iff, List.nodup_cons, List.mem_append,
        not_or] at apart
      have fresh : pair.1 ∉ binding.heldKeys := apart.1.1
      rw [List.foldlM_cons, atEntry.declare_eq_ok fresh, List.foldl_cons]
      refine ih ?_
      rw [heldKeys_insert_of_not_mem fresh, List.cons_append, List.nodup_cons, List.mem_append,
        not_or]
      exact apart

/-- Where two handlers share a key, the later one is refused. -/
theorem foldlM_declare_eq_error (declareAll : List.Forall₂ Declares declared pairs)
    (before : binding.heldKeys.Nodup) (meet : ¬(binding.heldKeys ++ pairs.map Prod.fst).Nodup) :
    ∃ key, List.Duplicate key (binding.heldKeys ++ pairs.map Prod.fst) ∧
      declared.foldlM declare binding = .error ⟨key.text, .registeredTwice⟩ := by
  induction declareAll generalizing binding with
  | nil => exact absurd (by rwa [List.map_nil, List.append_nil]) meet
  | @cons entry pair declared pairs atEntry _ ih =>
      have order : (binding.heldKeys ++ pair.1 :: pairs.map Prod.fst).Perm
          (pair.1 :: (binding.heldKeys ++ pairs.map Prod.fst)) := List.perm_middle
      rw [List.map_cons] at meet ⊢
      by_cases held : pair.1 ∈ binding.heldKeys
      · refine ⟨pair.1, ?_, ?_⟩
        · rw [List.duplicate_iff_two_le_count, order.count_eq, List.count_cons_self]
          have : 0 < (binding.heldKeys ++ pairs.map Prod.fst).count pair.1 :=
            List.count_pos_iff.mpr (List.mem_append_left _ held)
          omega
        · rw [List.foldlM_cons, atEntry.declare_eq_error held]
          rfl
      · have inserted : (binding.insert pair.1 pair.2).heldKeys = pair.1 :: binding.heldKeys :=
          heldKeys_insert_of_not_mem held
        rw [order.nodup_iff, ← List.cons_append, ← inserted] at meet
        obtain ⟨key, duplicate, refused⟩ :=
          ih (by rw [inserted]; exact List.nodup_cons.mpr ⟨held, before⟩) meet
        refine ⟨key, ?_, ?_⟩
        · rw [List.duplicate_iff_two_le_count] at duplicate ⊢
          rwa [order.count_eq, ← List.cons_append, ← inserted]
        · rw [List.foldlM_cons, atEntry.declare_eq_ok held]
          exact refused

/-- Declared handlers whose texts are keys are bound under these keys. -/
theorem exists_declares (keys : ∀ entry ∈ declared, ∃ key, HandlerKey.parse entry.1 = .ok key) :
    ∃ pairs, List.Forall₂ Declares declared pairs := by
  induction declared with
  | nil => exact ⟨[], .nil⟩
  | cons entry declared ih =>
      obtain ⟨⟨key, read⟩, rest⟩ := List.forall_mem_cons.mp keys
      obtain ⟨pairs, declareAll⟩ := ih rest
      exact ⟨(key, entry.2) :: pairs, .cons ⟨read, rfl⟩ declareAll⟩

theorem map_fst_of_declares (declareAll : List.Forall₂ Declares declared pairs) :
    declared.map Prod.fst = (pairs.map Prod.fst).map HandlerKey.text := by
  rw [List.map_map]
  exact Places.map_eq_map_of_forall₂ declareAll fun _ _ _ declares =>
    (HandlerKey.text_of_parse declares.key).symm

/-- Texts that are keys are different when the keys are. -/
theorem nodup_keys_iff (declareAll : List.Forall₂ Declares declared pairs) :
    (pairs.map Prod.fst).Nodup ↔ (declared.map Prod.fst).Nodup := by
  rw [map_fst_of_declares declareAll]
  refine ⟨fun distinct => distinct.map_on ?_, List.Nodup.of_map _⟩
  have read : ∀ key ∈ pairs.map Prod.fst, HandlerKey.parse key.text = .ok key := by
    intro key member
    obtain ⟨pair, inPairs, rfl⟩ := List.mem_map.mp member
    obtain ⟨entry, _, declares⟩ := Places.exists_of_mem_forall₂ declareAll inPairs
    rw [HandlerKey.text_of_parse declares.key, declares.key]
  intro key member other otherMember same
  have reread := read key member
  rw [same, read other otherMember] at reread
  exact (Except.ok.inj reread).symm

/-- A binding of the keys of declared texts, each to the handler of its text, and of nothing
else. -/
structure Binds (declared : List (String × Handler)) (binding : Binding) : Prop where
  keys : (binding.keys.map HandlerKey.text).Perm (declared.map Prod.fst)
  get? : ∀ key handler, binding.get? key = some handler ↔
    ∃ text, HandlerKey.parse text = .ok key ∧ (text, handler) ∈ declared

theorem get?_ofPairs_iff (distinct : (pairs.map Prod.fst).Nodup) {key : HandlerKey}
    {handler : Handler} : (ofPairs pairs).get? key = some handler ↔ (key, handler) ∈ pairs := by
  refine ⟨fun found => ?_, get?_ofPairs distinct⟩
  by_cases member : key ∈ pairs.map Prod.fst
  · obtain ⟨⟨_, bound⟩, inPairs, rfl⟩ := List.mem_map.mp member
    rw [get?_ofPairs distinct inPairs] at found
    exact Option.some.inj found ▸ inPairs
  · rw [ofPairs, get?_foldl_insert_of_not_mem member] at found
    cases found

theorem binds_ofPairs (declareAll : List.Forall₂ Declares declared pairs)
    (distinct : (pairs.map Prod.fst).Nodup) : (ofPairs pairs).Binds declared := by
  constructor
  · obtain ⟨nodup, held⟩ := @heldKeys_foldl_insert empty pairs List.nodup_nil
    have order : (ofPairs pairs).heldKeys.Perm (pairs.map Prod.fst) := by
      refine (List.perm_ext_iff_of_nodup nodup distinct).mpr fun key => ?_
      exact (held key).trans (by simp [heldKeys, empty])
    rw [map_fst_of_declares declareAll]
    exact ((List.mergeSort_perm _ _).trans order).map _
  · intro key handler
    rw [get?_ofPairs_iff distinct]
    constructor
    · intro member
      obtain ⟨entry, inDeclared, declares⟩ := Places.exists_of_mem_forall₂ declareAll member
      have handlerEq : handler = entry.2 := declares.handler
      exact ⟨entry.1, declares.key, handlerEq ▸ inDeclared⟩
    · rintro ⟨text, read, inDeclared⟩
      obtain ⟨pair, inPairs, declares⟩ :=
        Places.exists_of_mem_forall₂ declareAll.flip inDeclared
      have sameKey : pair.1 = key := Except.ok.inj (declares.key.symm.trans read)
      have pairEq : pair = (key, handler) := Prod.ext sameKey declares.handler
      exact pairEq ▸ inPairs

/-- Handlers under different texts are bound, each under the key of its text. -/
theorem ofDeclared_eq_ok (keys : ∀ entry ∈ declared, ∃ key, HandlerKey.parse entry.1 = .ok key)
    (distinct : (declared.map Prod.fst).Nodup) :
    ∃ binding, ofDeclared declared = .ok binding ∧ binding.Binds declared := by
  obtain ⟨pairs, declareAll⟩ := exists_declares keys
  have apart := (nodup_keys_iff declareAll).mpr distinct
  refine ⟨ofPairs pairs, ?_, binds_ofPairs declareAll apart⟩
  rw [ofDeclared_eq_foldlM]
  exact foldlM_declare_eq_ok declareAll apart

/-- A text that is there twice is refused. -/
theorem ofDeclared_eq_error (keys : ∀ entry ∈ declared, ∃ key, HandlerKey.parse entry.1 = .ok key)
    (repeated : ¬(declared.map Prod.fst).Nodup) :
    ∃ text, List.Duplicate text (declared.map Prod.fst) ∧
      ofDeclared declared = .error ⟨text, .registeredTwice⟩ := by
  obtain ⟨pairs, declareAll⟩ := exists_declares keys
  have meet := mt (nodup_keys_iff declareAll).mp repeated
  obtain ⟨key, duplicate, refused⟩ :=
    @foldlM_declare_eq_error empty _ _ declareAll List.nodup_nil meet
  refine ⟨key.text, ?_, (ofDeclared_eq_foldlM declared).trans refused⟩
  rw [map_fst_of_declares declareAll, List.duplicate_iff_sublist]
  exact (List.duplicate_iff_sublist.mp duplicate).map HandlerKey.text

end Binding

end ModuleRoutes
