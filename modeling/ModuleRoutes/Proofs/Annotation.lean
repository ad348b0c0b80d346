import ModuleRoutes.Annotation
import ModuleRoutes.Proofs.Compiler.HandlerKeys
import ModuleRoutes.Proofs.Handler.Declared

/-!
# Annotated handlers

An annotation accepts the texts that are read as keys and whose segments are all in kebab case
(`ModuleRoutes.Annotation.checkKey_eq_ok_iff`). The keys of compiled tables are made of tokens, so
that a handler can be annotated with each of them, and annotated handlers are bound unless two of
them have one key (`ModuleRoutes.Annotation.agrees_with_keys`).
-/

namespace ModuleRoutes

namespace Annotation

variable {text : String}

/-! ## The checks of an annotation -/

theorem kebabText_of_isToken {token : String} (isToken : Name.IsToken token) :
    kebabText token = token := by
  rw [kebabText, isToken.kebab_eq, String.ofList_toList]

theorem checkSegment_eq_ok_iff {part : String} :
    checkSegment text part = .ok () ↔ part ≠ "" ∧ kebabText part = part := by
  unfold checkSegment
  split
  · next empty => simp [String.isEmpty_iff.mp empty]
  · next filled =>
    split <;> simp_all

/-- The kinds that annotations know are the kinds that keys are read with. -/
theorem knownKinds_eq : knownKinds = Kind.all.map Kind.text := rfl

theorem not_mem_knownKinds {name : String} (unknown : Kind.ofText? name = none) :
    name ∉ knownKinds := by
  rw [knownKinds_eq, List.mem_map]
  rintro ⟨kind, -, rfl⟩
  rw [Kind.ofText?_text] at unknown
  cases unknown

/-- The kind of a key without a resource is accepted when the key is. -/
theorem checkKind_three_eq_ok_iff {moduleId name action : String} :
    checkKind text name 3 = .ok () ↔
      ∃ key, HandlerKey.ofSegments [moduleId, name, action] = .ok key := by
  simp only [checkKind, HandlerKey.ofSegments]
  cases known : Kind.ofText? name with
  | none => simp [not_mem_knownKinds known]
  | some kind =>
    cases Kind.ofText?_eq_some_iff.mp known
    cases kind <;> simp [Kind.text, knownKinds]

/-- The kind of a key with a resource is accepted when the key is. -/
theorem checkKind_four_eq_ok_iff {moduleId name resource action : String} :
    checkKind text name 4 = .ok () ↔
      ∃ key, HandlerKey.ofSegments [moduleId, name, resource, action] = .ok key := by
  simp only [checkKind, HandlerKey.ofSegments]
  cases known : Kind.ofText? name with
  | none => simp [not_mem_knownKinds known]
  | some kind =>
    cases Kind.ofText?_eq_some_iff.mp known
    cases kind <;> simp [Kind.text, knownKinds]

/-- The check of the shape of a key accepts the segments that name a key. -/
theorem checkShape_eq_ok_iff (segments : List String) :
    (match segments with
      | [_, kind, _] | [_, kind, _, _] => checkKind text kind segments.length
      | _ => throw (AnnotationFault.segmentCount text)) = .ok () ↔
      ∃ key, HandlerKey.ofSegments segments = .ok key := by
  match segments with
  | [_, _, _] => exact checkKind_three_eq_ok_iff
  | [_, _, _, _] => exact checkKind_four_eq_ok_iff
  | [] | [_] | [_, _] | _ :: _ :: _ :: _ :: _ :: _ =>
      exact iff_of_false nofun fun ⟨_, named⟩ => nomatch named

/-- **Keys in annotations.** An annotation accepts a text when it is read as a key and its segments
are in kebab case. -/
theorem checkKey_eq_ok_iff :
    checkKey text = .ok () ↔
      (∃ key, HandlerKey.parse text = .ok key) ∧
        ∀ part ∈ Text.pieces '/' text, kebabText part = part := by
  have checks : checkKey text = .ok () ↔
      (∀ part ∈ Text.pieces '/' text, part ≠ "" ∧ kebabText part = part) ∧
        ∃ key, HandlerKey.ofSegments (Text.pieces '/' text) = .ok key := by
    simp only [← @checkSegment_eq_ok_iff text, ← @checkShape_eq_ok_iff text]
    rw [← Outcome.forM_eq_ok_iff]
    exact Outcome.check_bind_eq_ok_iff
  simp only [HandlerKey.parse_eq_ok_iff, exists_and_left]
  rw [checks]
  constructor
  · rintro ⟨each, named⟩
    exact ⟨⟨fun part member => (each part member).1, named⟩,
      fun part member => (each part member).2⟩
  · rintro ⟨⟨filled, named⟩, kebab⟩
    exact ⟨fun part member => ⟨filled part member, kebab part member⟩, named⟩

/-! ## Keys of compiled tables -/

/-- The parts of the keys of a compiled table are tokens. -/
theorem isToken_of_mem_parts {compiler : Compiler} {definition : Definition} {table : RouteTable}
    (compiled : compiler.compile definition = .ok table) {key : HandlerKey}
    (member : key ∈ table.handlerKeys) : ∀ part ∈ key.parts, Name.IsToken part := by
  obtain ⟨normal, normalized, filled, keeps, -, rfl⟩ := Compiler.compile_eq_ok_iff.mp compiled
  obtain ⟨moduleToken, tokens⟩ := Definition.tokens_of_normalize normalized
  obtain ⟨route, inLayout, rfl⟩ := List.mem_map.mp member
  obtain ⟨part, inSections, action, inActions, laid⟩ :=
    Definition.exists_routeOf_of_mem_layout tokens filled keeps inLayout
  have isNormal := tokens part inSections
  rw [laid.handlerKey]
  simp only [HandlerKey.parts, List.forall_mem_cons, List.forall_mem_append, Option.mem_toList]
  exact ⟨moduleToken, Section.isToken_kind part.kind.kind, isNormal.noun,
    isNormal.names action inActions, fun _ inNone => absurd inNone List.not_mem_nil⟩

/-- A handler can be annotated with each key of a compiled table. -/
theorem checkKey_of_compile {compiler : Compiler} {definition : Definition} {table : RouteTable}
    (compiled : compiler.compile definition = .ok table) {key : HandlerKey}
    (member : key ∈ table.handlerKeys) : checkKey key.text = .ok () := by
  have tokens := isToken_of_mem_parts compiled member
  have pieces : Text.pieces '/' key.text = key.parts := by
    rw [HandlerKey.text_eq]
    exact Text.pieces_joined (fun part inParts => (tokens part inParts).slash_not_mem)
      (List.cons_ne_nil _ _)
  obtain ⟨route, inRoutes, rfl⟩ := List.mem_map.mp member
  rw [checkKey_eq_ok_iff, pieces]
  exact ⟨⟨_, HandlerKey.parse_text (Compiler.wellFormed_of_compile compiled route inRoutes)⟩,
    fun part inParts => kebabText_of_isToken (tokens part inParts)⟩

/-! ## Handlers under annotated keys -/

/-- **Agreement.** Annotations accept the texts that are read as keys and are in kebab case segment
by segment, among them every key of every compiled table. Handlers under accepted texts, declared in
any order, are bound to just the keys of these texts when the texts are all different; otherwise a
text that is there twice is refused. -/
theorem agrees_with_keys :
    (∀ text, checkKey text = .ok () ↔
      (∃ key, HandlerKey.parse text = .ok key) ∧
        ∀ part ∈ Text.pieces '/' text, kebabText part = part) ∧
    (∀ (compiler : Compiler) (definition : Definition) (table : RouteTable),
      compiler.compile definition = .ok table →
        ∀ key ∈ table.handlerKeys, checkKey key.text = .ok ()) ∧
    ∀ declared : List (String × Handler), (∀ entry ∈ declared, checkKey entry.1 = .ok ()) →
      ((declared.map Prod.fst).Nodup →
        ∃ binding, Binding.ofDeclared declared = .ok binding ∧ binding.Binds declared) ∧
      (¬(declared.map Prod.fst).Nodup →
        ∃ text, List.Duplicate text (declared.map Prod.fst) ∧
          Binding.ofDeclared declared = .error ⟨text, .registeredTwice⟩) := by
  refine ⟨fun text => checkKey_eq_ok_iff, fun compiler definition table compiled key member =>
    checkKey_of_compile compiled member, fun declared accepted => ?_⟩
  have keys : ∀ entry ∈ declared, ∃ key, HandlerKey.parse entry.1 = .ok key :=
    fun entry member => (checkKey_eq_ok_iff.mp (accepted entry member)).1
  exact ⟨Binding.ofDeclared_eq_ok keys, Binding.ofDeclared_eq_error keys⟩

theorem agrees_with_keys_listings :
    (∃ table, Compiler.default.compile (Definition.template "m" "listings" "tags" "audits") =
        .ok table ∧ ∀ key ∈ table.handlerKeys, checkKey key.text = .ok ()) ∧
    (∃ binding, Binding.ofDeclared
        [("m/settings/get", .echo), ("m/resource/tags/list", .constant .null)] = .ok binding ∧
      binding.Binds [("m/settings/get", .echo), ("m/resource/tags/list", .constant .null)]) ∧
    ∃ text, List.Duplicate text ["m/settings/get", "m/resource/tags/list", "m/settings/get"] ∧
      Binding.ofDeclared [("m/settings/get", .echo), ("m/resource/tags/list", .constant .null),
        ("m/settings/get", .constant .null)] = .error ⟨text, .registeredTwice⟩ := by
  obtain ⟨-, ofTable, ofDeclared⟩ := agrees_with_keys
  obtain ⟨table, compiled⟩ := Outcome.exists_eq_ok (by decide +kernel :
    (Compiler.default.compile (Definition.template "m" "listings" "tags" "audits")).isOk = true)
  have settings : checkKey "m/settings/get" = .ok () := by decide +kernel
  have tags : checkKey "m/resource/tags/list" = .ok () := by decide +kernel
  refine ⟨⟨table, compiled, ofTable _ _ table compiled⟩, ?_, ?_⟩
  · exact (ofDeclared [("m/settings/get", .echo), ("m/resource/tags/list", .constant .null)]
      (by simp [settings, tags])).1 (by decide)
  · exact (ofDeclared [("m/settings/get", .echo), ("m/resource/tags/list", .constant .null),
      ("m/settings/get", .constant .null)] (by simp [settings, tags])).2 (by decide)

end Annotation

end ModuleRoutes
