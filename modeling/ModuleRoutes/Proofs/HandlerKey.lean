import ModuleRoutes.HandlerKey
import ModuleRoutes.Proofs.Outcome
import ModuleRoutes.Proofs.Text.Separated

/-!
# The text of handler keys

A key whose parts hold no slash, and which has a resource exactly when it is one of a resource, is
well formed. A text is read as a key exactly when the key is well formed and the text is its text
(`ModuleRoutes.HandlerKey.parse_eq_ok_iff_isWellFormed`). So on such keys the text determines the
key (`ModuleRoutes.HandlerKey.text_determines_key`).
-/

namespace ModuleRoutes

namespace Kind

theorem ofText?_text (kind : Kind) : ofText? kind.text = some kind := by cases kind <;> decide

/-- A kind is found by its text, and no other text is found. -/
theorem ofText?_eq_some_iff {name : String} {kind : Kind} :
    ofText? name = some kind ↔ name = kind.text := by
  constructor
  · intro found
    unfold ofText? at found
    split at found <;> cases found <;> rfl
  · rintro rfl
    exact ofText?_text kind

end Kind

namespace HandlerKey

/-- A text that can be told apart between slashes. -/
def IsPart (text : String) : Prop := text ≠ "" ∧ '/' ∉ text.toList

/-- A key whose parts can be told apart in its text, with a resource if it is one of a resource. -/
structure IsWellFormed (key : HandlerKey) : Prop where
  moduleId : IsPart key.moduleId
  action : IsPart key.action
  resource : ∀ noun, key.resource = some noun → IsPart noun
  noun : key.resource.isSome = decide (key.kind = .resource)

/-- The parts of a key in the order of its text. -/
def parts (key : HandlerKey) : List String :=
  key.moduleId :: key.kind.text :: (key.resource.toList ++ [key.action])

variable {key : HandlerKey}

theorem text_eq : key.text = Text.joined "/" key.parts := by
  apply String.toList_injective
  unfold text parts
  cases key.resource with
  | none => simp [Text.joined, Text.joinWith]
  | some noun => simp [Text.joined, Text.joinWith]

theorem isPart_kind (kind : Kind) : IsPart kind.text := by
  cases kind <;> exact ⟨by decide, by decide⟩

theorem IsWellFormed.isPart_of_mem_parts (wellFormed : key.IsWellFormed) {part : String}
    (member : part ∈ key.parts) : IsPart part := by
  simp only [parts, List.mem_cons, List.mem_append, Option.mem_toList, List.not_mem_nil,
    or_false] at member
  rcases member with rfl | rfl | noun | rfl
  · exact wellFormed.moduleId
  · exact isPart_kind key.kind
  · exact wellFormed.resource part noun
  · exact wellFormed.action

theorem IsWellFormed.ofSegments_parts (wellFormed : key.IsWellFormed) :
    ofSegments key.parts = .ok key := by
  obtain ⟨moduleId, kind, resource, action⟩ := key
  have noun := wellFormed.noun
  cases resource with
  | none =>
      simp only [parts, Option.toList_none, List.nil_append, ofSegments, Kind.ofText?_text]
      cases kind <;> first | rfl | simp at noun
  | some resource =>
      simp only [parts, Option.toList_some, List.singleton_append, ofSegments, Kind.ofText?_text]
      cases kind <;> first | rfl | simp at noun

/-- The text of a well formed key is read back as the key. -/
theorem parse_text (wellFormed : key.IsWellFormed) : parse key.text = .ok key := by
  have segments : Text.pieces '/' key.text = key.parts := by
    rw [text_eq]
    exact Text.pieces_joined (fun part member => (wellFormed.isPart_of_mem_parts member).2)
      (List.cons_ne_nil _ _)
  have filled : key.parts.any String.isEmpty = false := by
    rw [List.any_eq_false]
    intro part member
    simpa using (wellFormed.isPart_of_mem_parts member).1
  simp only [parse, segments, filled, wellFormed.ofSegments_parts, Bool.false_eq_true, if_false]
  rfl

theorem text_inj {other : HandlerKey} (wellFormed : key.IsWellFormed)
    (otherWellFormed : other.IsWellFormed) (same : key.text = other.text) : key = other := by
  have read := parse_text wellFormed
  rw [same, parse_text otherWellFormed] at read
  exact (Except.ok.inj read).symm

/-! ## Texts that are read as keys -/

/-- The segments that name a key are its parts. -/
theorem parts_of_ofSegments {segments : List String} (named : ofSegments segments = .ok key) :
    key.parts = segments := by
  unfold ofSegments at named
  split at named
  · split at named
    · cases named
    · cases named
    · next kind _ known =>
      cases named
      rw [parts, Option.toList_none, List.nil_append, Kind.ofText?_eq_some_iff.mp known]
  · split at named
    · cases named
    · next known =>
      cases named
      rw [parts, Option.toList_some, List.singleton_append, Kind.ofText?_eq_some_iff.mp known]
    · cases named
  · cases named

/-- A text is read as the key that its segments name, none of them empty. -/
theorem parse_eq_ok_iff {text : String} :
    parse text = .ok key ↔
      (∀ part ∈ Text.pieces '/' text, part ≠ "") ∧ ofSegments (Text.pieces '/' text) = .ok key := by
  rw [parse]
  split
  · next empty =>
    obtain ⟨part, member, blank⟩ := List.any_eq_true.mp empty
    exact iff_of_false nofun fun ⟨filled, _⟩ => filled part member (by simpa using blank)
  · next filled =>
    rw [Outcome.mapError_eq_ok_iff]
    simp only [List.any_eq_true, not_exists, not_and, String.isEmpty_iff] at filled
    exact (and_iff_right filled).symm

/-- A text that is read as a key is the text of the key. -/
theorem text_of_parse {text : String} (read : parse text = .ok key) : key.text = text := by
  rw [text_eq, parts_of_ofSegments (parse_eq_ok_iff.mp read).2]
  exact Text.joined_pieces '/' text

/-- The segments that name a key name a resource exactly when they name the kind of one. -/
theorem isSome_resource_of_ofSegments {segments : List String}
    (named : ofSegments segments = .ok key) :
    key.resource.isSome = decide (key.kind = .resource) := by
  unfold ofSegments at named
  split at named
  · split at named
    · cases named
    · cases named
    · next kind notResource _ =>
      cases named
      exact (decide_eq_false notResource).symm
  · split at named
    · cases named
    · cases named
      rfl
    · cases named
  · cases named

/-- Only well formed keys are read. -/
theorem isWellFormed_of_parse {text : String} (read : parse text = .ok key) :
    key.IsWellFormed := by
  obtain ⟨filled, named⟩ := parse_eq_ok_iff.mp read
  have isPart : ∀ part ∈ key.parts, IsPart part := by
    intro part member
    rw [parts_of_ofSegments named] at member
    obtain ⟨piece, inText, rfl⟩ := List.mem_map.mp member
    refine ⟨filled _ member, ?_⟩
    rw [String.toList_ofList]
    exact Text.not_mem_of_mem_splitOn inText
  constructor
  case moduleId => exact isPart _ List.mem_cons_self
  case action => exact isPart _ (by simp [parts])
  case resource => exact fun noun given => isPart noun (by simp [parts, given])
  case noun => exact isSome_resource_of_ofSegments named

/-- A text is read as the well formed key that it is the text of. -/
theorem parse_eq_ok_iff_isWellFormed {text : String} :
    parse text = .ok key ↔ key.IsWellFormed ∧ key.text = text := by
  constructor
  · intro read
    exact ⟨isWellFormed_of_parse read, text_of_parse read⟩
  · rintro ⟨wellFormed, rfl⟩
    exact parse_text wellFormed

/-- **Texts of keys.** A key that was read from a text is written as this text; a key is read back
from its text exactly when it is well formed; and well formed keys with one text are one key. -/
theorem text_determines_key :
    (∀ text key, parse text = .ok key → key.text = text) ∧
      (∀ key, parse key.text = .ok key ↔ key.IsWellFormed) ∧
      ∀ key other : HandlerKey, key.IsWellFormed → other.IsWellFormed →
        key.text = other.text → key = other := by
  refine ⟨fun text key read => text_of_parse read, fun key => ?_, fun key other => text_inj⟩
  rw [parse_eq_ok_iff_isWellFormed]
  exact and_iff_left rfl

end HandlerKey

end ModuleRoutes
