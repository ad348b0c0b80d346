import ModuleRoutes.Proofs.Registration.Blocks
import ModuleRoutes.Proofs.Registration.Keys

/-!
# Registrations on root paths

The root path of a section suggests a key for every method, so a registration on one is kept if
its block has no label. A label takes precedence over the path, though, and gives no key when its
section or its action has no token. The registration is then lost, although its path would have
named it (`ModuleRoutes.Registration.extract_root`,
`ModuleRoutes.Registration.extract_drops_foreignAction`).
-/

namespace ModuleRoutes

namespace Registration

/-- The root paths of the sections of a definition: three fixed ones, and one for the noun of each
resource of its normal form. -/
def IsRoot (definition : Definition) (path : String) : Prop :=
  path ∈ ["/dashboard", "/analytics", "/settings"] ∨
    ∃ normal, definition.normalize = .ok normal ∧ ∃ part ∈ normal.sections, ∃ noun,
      part.resourceName = some noun ∧ path = "/" ++ noun

/-- A label whose section and action both have tokens. -/
def StubLabel.Normalizes (label : StubLabel) : Prop :=
  Name.Normalizes label.part ∧ Name.Normalizes label.action

namespace Vocabulary

variable {words : Vocabulary}

theorem isToken_collectionAction (method : Method) : Name.IsToken (collectionAction method) := by
  cases method with
  | get => decide
  | post => decide
  | _ => exact Section.isToken_lowerText _

theorem segments_noun {noun : String} (isToken : Name.IsToken noun) :
    Text.segments '/' ("/" ++ noun) = [noun] := by
  have free : ∀ part ∈ [noun], '/' ∉ part.toList := by simpa using isToken.slash_not_mem
  have filled : ∀ part ∈ [noun], part ≠ "" := by simpa using isToken.toList_ne_nil
  have segments := Text.segments_path free filled (List.cons_ne_nil _ _)
  rwa [Section.joined_singleton] at segments

/-- The path of a resource suggests a key for every method. -/
theorem keyOfPath?_noun_isSome {noun : String} (declared : noun ∈ words.nouns)
    (isToken : Name.IsToken noun) (method : Method) :
    (words.keyOfPath? method ("/" ++ noun)).isSome := by
  have collection : (words.keyBelowNoun? method noun []).isSome := by
    rw [keyBelowNoun?, spelledKey?_of_isToken _ (isToken_collectionAction method)]
    rfl
  unfold keyOfPath?
  rw [segments_noun isToken]
  -- A noun may be the name of another section, whose root path it then takes.
  split
  · rfl
  · rfl
  · rfl
  · rfl
  · rfl
  · next segments =>
    obtain ⟨rfl, rfl⟩ := List.cons.inj segments
    rw [if_pos declared]
    exact collection
  · next segments => cases segments

theorem keyOfPath?_isSome_of_isRoot {definition : Definition} {path : String}
    (root : IsRoot definition path) (method : Method) :
    ((ofDefinition definition).keyOfPath? method path).isSome := by
  rcases root with fixed | ⟨normal, normalized, part, member, noun, named, rfl⟩
  · simp only [List.mem_cons, List.not_mem_nil, or_false] at fixed
    have dashboard : Text.segments '/' "/dashboard" = ["dashboard"] := by decide
    have analytics : Text.segments '/' "/analytics" = ["analytics"] := by decide
    have settings : Text.segments '/' "/settings" = ["settings"] := by decide
    unfold keyOfPath?
    rcases fixed with rfl | rfl | rfl
    · rw [dashboard]; rfl
    · rw [analytics]; rfl
    · rw [settings]; rfl
  · have isToken := (Definition.tokens_of_normalize normalized).2 part member |>.noun noun named
    have declared : noun ∈ (ofDefinition definition).nouns := by
      rw [ofDefinition, normalized]
      exact List.mem_filterMap.mpr ⟨part, member, named⟩
    exact keyOfPath?_noun_isSome declared isToken method

end Vocabulary

variable {definition : Definition} {line : List Char} {before after : List (List Char)}
  {method : Method} {path : List Char}

/-- A block on a root path has a route unless its label has a part without a token. -/
theorem route?_isSome_iff_of_isRoot (root : IsRoot definition (cleanPath path))
    (label : Option StubLabel) :
    (Pending.route? (Vocabulary.ofDefinition definition) ⟨method, path, label⟩).isSome ↔
      ∀ named, label = some named → named.Normalizes := by
  rw [Pending.route?, Option.isSome_map]
  cases label with
  | none => simpa using Vocabulary.keyOfPath?_isSome_of_isRoot root method
  | some named =>
      rw [Vocabulary.keyOfLabel?_isSome_iff, ← StubLabel.Normalizes]
      constructor
      · rintro normalizes _ ⟨⟩
        exact normalizes
      · intro each
        exact each named rfl

theorem method_and_path_of_route? {words : Vocabulary} {block : Pending} {route : Route}
    (found : block.route? words = some route) :
    route.method = block.method ∧ route.path = cleanPath block.path := by
  rw [Pending.route?, Option.map_eq_some_iff] at found
  obtain ⟨key, _, rfl⟩ := found
  exact ⟨rfl, rfl⟩

/-- **Root registrations.** A registration on the root path of a section adds one route, with its
method and path, between the routes of the lines before and after it, unless the first label of its
block names a section or an action that has no token: it then adds none. -/
theorem extract_root {source : String}
    (lines : Text.splitOn '\n' source.toList = before ++ line :: after)
    (registers : registered? line = some (method, path))
    (root : IsRoot definition (cleanPath path)) :
    ∃ kept : Option Route,
      extract source definition =
        routesOf definition before ++ kept.toList ++ routesOf definition after ∧
      (kept.isSome ↔ ∀ label, (blockLines line after).findSome? stubLabel? = some label →
        label.Normalizes) ∧
      ∀ route, kept = some route → route.method = method ∧ route.path = cleanPath path := by
  refine ⟨Pending.route? (Vocabulary.ofDefinition definition)
    ⟨method, path, (blockLines line after).findSome? stubLabel?⟩, ?_, ?_, ?_⟩
  · rw [extract_eq, lines, routesOf_append definition registers,
      routesOf_cons_of_registered definition registers, List.append_assoc]
  · exact route?_isSome_iff_of_isRoot root _
  · intro route found
    exact method_and_path_of_route? found

/-- A registration on a root path whose stub names an action that has no token. -/
def foreignReset : String :=
  "router.post('/settings', (req, res) => \x7b\n" ++
    "  res.json(\x7b section: 'settings', action: 'reset/all' \x7d);\n\x7d);"

theorem foreignReset_registers :
    Text.splitOn '\n' foreignReset.toList =
        [] ++ "router.post('/settings', (req, res) => \x7b".toList ::
          ["  res.json(\x7b section: 'settings', action: 'reset/all' \x7d);".toList,
            "\x7d);".toList] ∧
      registered? "router.post('/settings', (req, res) => \x7b".toList =
        some (.post, "/settings".toList) ∧
      cleanPath "/settings".toList = "/settings" := by
  decide +kernel

theorem extract_root_foreignReset :
    ∃ line after, Text.splitOn '\n' foreignReset.toList = [] ++ line :: after ∧
      registered? line = some (.post, "/settings".toList) ∧
      IsRoot (Definition.template "seo-optimizer" "listings" "keywords" "audits")
        (cleanPath "/settings".toList) ∧
      ∃ kept : Option Route,
        extract foreignReset (Definition.template "seo-optimizer" "listings" "keywords" "audits") =
          routesOf (Definition.template "seo-optimizer" "listings" "keywords" "audits") [] ++
            kept.toList ++
              routesOf (Definition.template "seo-optimizer" "listings" "keywords" "audits") after ∧
        (kept.isSome ↔ ∀ label, (blockLines line after).findSome? stubLabel? = some label →
          label.Normalizes) ∧
        ∀ route, kept = some route →
          route.method = .post ∧ route.path = cleanPath "/settings".toList := by
  obtain ⟨lines, registers, clean⟩ := foreignReset_registers
  have root : IsRoot (Definition.template "seo-optimizer" "listings" "keywords" "audits")
      (cleanPath "/settings".toList) := by
    rw [clean]
    exact Or.inl (by decide)
  exact ⟨_, _, lines, registers, root, extract_root lines registers root⟩

/-- The registration is recognized on a root path, and no route comes of it. -/
theorem extract_drops_foreignAction :
    ∃ line ∈ Text.splitOn '\n' foreignReset.toList,
      registered? line = some (.post, "/settings".toList) ∧
      cleanPath "/settings".toList = "/settings" ∧
      extract foreignReset (Definition.template "seo-optimizer" "listings" "keywords" "audits") =
        [] := by
  obtain ⟨lines, registers, clean⟩ := foreignReset_registers
  have member : "router.post('/settings', (req, res) => \x7b".toList ∈
      Text.splitOn '\n' foreignReset.toList := by
    rw [lines]
    exact List.mem_cons_self
  exact ⟨_, member, registers, clean, by decide +kernel⟩

end Registration

end ModuleRoutes
