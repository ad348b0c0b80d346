import ModuleRoutes.Conformance.Check
import ModuleRoutes.Proofs.Compiler.HandlerKeys
import ModuleRoutes.Proofs.Files.Tree
import ModuleRoutes.Proofs.Registration.Blocks
import ModuleRoutes.Proofs.Route.Encoded
import ModuleRoutes.Registration.Load

/-!
# Storing observed routes

An action that is taken from a path is any text between slashes, and one that is taken from a label
is a token, so the key of every observed route can be told apart in its text. Observed routes that
are written to a file are then read back as they are (`ModuleRoutes.Registration.extract_stored`).
-/

namespace ModuleRoutes

open Files

/-- What stands between two slashes can be told apart from its neighbours. -/
theorem isPart_of_mem_segments {path segment : String}
    (member : segment ∈ Text.segments '/' path) : HandlerKey.IsPart segment := by
  obtain ⟨inPieces, filled⟩ := List.mem_filter.mp member
  obtain ⟨piece, inSplit, rfl⟩ := List.mem_map.mp inPieces
  refine ⟨by simpa using filled, ?_⟩
  rw [String.toList_ofList]
  exact Text.not_mem_of_mem_splitOn inSplit

namespace Registration

theorem head?_cleanPath (raw : List Char) : (cleanPath raw).toList.head? = some '/' := by
  unfold cleanPath
  dsimp only
  split
  · rfl
  · next path =>
    rw [String.toList_ofList, path]
    rfl
  · rw [String.toList_ofList]
    rfl

namespace Vocabulary

/-- The names of a vocabulary are tokens. -/
structure IsNormal (words : Vocabulary) : Prop where
  moduleId : Name.IsToken words.moduleId
  nouns : ∀ noun ∈ words.nouns, Name.IsToken noun
  dashboardRoot : Name.IsToken words.dashboardRoot
  analyticsRoot : Name.IsToken words.analyticsRoot
  settings : ∀ action ∈ words.settings, Name.IsToken action

/-- A key of the module of a vocabulary that can be told apart in its text. -/
structure Names (words : Vocabulary) (key : HandlerKey) : Prop where
  moduleId : key.moduleId = words.moduleId
  wellFormed : key.IsWellFormed

variable {definition normal : Definition} {words : Vocabulary} {method : Method} {key : HandlerKey}
  {noun action otherwise : String}

theorem isToken_rootAction {slot : Slot} (tokens : ∀ part ∈ normal.sections, part.IsNormal)
    (isToken : Name.IsToken otherwise) : Name.IsToken (rootAction normal slot otherwise) := by
  unfold rootAction
  split
  · next action found =>
    obtain ⟨part, inSlot, first⟩ := Option.bind_eq_some_iff.mp found
    exact (tokens part (List.mem_of_find?_eq_some inSlot)).names action (List.mem_of_head? first)
  · exact isToken

theorem isNormal_ofDefinition (normalized : definition.normalize = .ok normal) :
    (ofDefinition definition).IsNormal := by
  obtain ⟨moduleId, tokens⟩ := Definition.tokens_of_normalize normalized
  unfold ofDefinition
  rw [normalized]
  refine ⟨moduleId, fun noun declared => ?_, isToken_rootAction tokens (by decide),
    isToken_rootAction tokens (by decide), ?_⟩
  · obtain ⟨part, member, named⟩ := List.mem_filterMap.mp declared
    exact (tokens part member).noun noun named
  · dsimp only
    split
    · next part found =>
      exact List.forall_mem_map.mpr (tokens part (List.mem_of_find?_eq_some found)).names
    · decide

theorem IsNormal.names_plainKey (normal : words.IsNormal) {kind : Kind} (plain : kind ≠ .resource)
    (isPart : HandlerKey.IsPart action) : words.Names (words.plainKey kind action) :=
  ⟨rfl, isPart_of_isToken normal.moduleId, isPart, nofun, (decide_eq_false plain).symm⟩

theorem IsNormal.names_nounKey (normal : words.IsNormal) (nounPart : HandlerKey.IsPart noun)
    (isPart : HandlerKey.IsPart action) : words.Names (words.nounKey noun action) := by
  refine ⟨rfl, isPart_of_isToken normal.moduleId, isPart, ?_, rfl⟩
  rintro _ ⟨⟩
  exact nounPart

/-- The key of a settings route has a declared action, or else the one that it is read with. -/
theorem IsNormal.names_settingsKey (normal : words.IsNormal) (method : Method)
    (isToken : Name.IsToken otherwise) : words.Names (words.settingsKey method otherwise) := by
  refine normal.names_plainKey (by decide) (isPart_of_isToken ?_)
  have declared : ∀ index : Nat, Name.IsToken (words.settings[index]?.getD otherwise) := by
    intro index
    cases found : words.settings[index]? with
    | none => exact isToken
    | some action => exact normal.settings action (List.mem_of_getElem? found)
  cases method with
  | get => exact declared 0
  | put => exact declared 1
  | _ => exact isToken

/-- The parts of a label are read as tokens. -/
theorem IsNormal.names_of_keyOfLabel? (normal : words.IsNormal) {label : StubLabel}
    (found : words.keyOfLabel? method label = some key) : words.Names key := by
  unfold keyOfLabel? at found
  cases part : Name.normalize label.part with
  | error fault =>
      rw [part] at found
      cases found
  | ok partToken =>
      cases action : Name.normalize label.action with
      | error fault =>
          rw [part, action] at found
          cases found
      | ok token =>
          rw [part, action] at found
          obtain rfl := Option.some.inj found
          have isToken := Name.isToken_of_normalize action
          have isPart := isPart_of_isToken isToken
          split
          · exact normal.names_plainKey (by decide) isPart
          · exact normal.names_plainKey (by decide) isPart
          · exact normal.names_plainKey (by decide) isPart
          · exact normal.names_settingsKey method isToken
          · exact normal.names_nounKey (isPart_of_isToken (Name.isToken_of_normalize part)) isPart

theorem IsNormal.names_of_spelledKey? (normal : words.IsNormal) (nounPart : HandlerKey.IsPart noun)
    (found : words.spelledKey? noun action = some key) : words.Names key := by
  obtain ⟨token, spelled, rfl⟩ := Option.map_eq_some_iff.mp found
  refine normal.names_nounKey nounPart (isPart_of_isToken ?_)
  cases normalized : Name.normalize action with
  | error fault =>
      rw [normalized] at spelled
      cases spelled
  | ok name =>
      rw [normalized] at spelled
      obtain rfl := Option.some.inj spelled
      exact Name.isToken_of_normalize normalized

/-- Below a resource, every action is read as its token. -/
theorem IsNormal.names_of_keyBelowNoun? (normal : words.IsNormal)
    (nounPart : HandlerKey.IsPart noun) {rest : List String}
    (found : words.keyBelowNoun? method noun rest = some key) : words.Names key := by
  have spelled : ∀ {name : String}, words.spelledKey? noun name = some key → words.Names key :=
    normal.names_of_spelledKey? nounPart
  cases rest with
  | nil => exact spelled found
  | cons first rest =>
      unfold keyBelowNoun? at found
      dsimp only at found
      by_cases parameter : isPathParameter first = true
      · rw [if_pos parameter] at found
        split at found
        · exact spelled found
        · exact spelled found
        · cases found
      · rw [if_neg parameter] at found
        by_cases detail : first = "detail"
        · rw [if_pos detail] at found
          exact spelled found
        · rw [if_neg detail] at found
          split at found
          · exact spelled found
          · exact spelled found
          · cases found

theorem IsNormal.names_of_utilityKey? (normal : words.IsNormal) {segments : List String}
    (parts : ∀ segment ∈ segments, HandlerKey.IsPart segment)
    (found : words.utilityKey? segments = some key) : words.Names key := by
  unfold utilityKey? at found
  split at found
  · next action =>
    split at found
    · cases found
    · obtain rfl := Option.some.inj found
      exact normal.names_plainKey (by decide) (parts action (List.mem_singleton_self _))
  · cases found

/-- The segments of a path stand between slashes, whatever characters they are made of. -/
theorem IsNormal.names_of_keyOfPath? (normal : words.IsNormal) {path : String}
    (found : words.keyOfPath? method path = some key) : words.Names key := by
  have parts : ∀ segment ∈ Text.segments '/' path, HandlerKey.IsPart segment :=
    fun segment member => isPart_of_mem_segments member
  unfold keyOfPath? at found
  split at found
  · obtain rfl := Option.some.inj found
    exact normal.names_plainKey (by decide) (isPart_of_isToken normal.dashboardRoot)
  · next action segments =>
    obtain rfl := Option.some.inj found
    rw [segments] at parts
    exact normal.names_plainKey (by decide) (parts action (by simp))
  · obtain rfl := Option.some.inj found
    exact normal.names_plainKey (by decide) (isPart_of_isToken normal.analyticsRoot)
  · next action segments =>
    obtain rfl := Option.some.inj found
    rw [segments] at parts
    exact normal.names_plainKey (by decide) (parts action (by simp))
  · obtain rfl := Option.some.inj found
    exact normal.names_settingsKey method (Section.isToken_lowerText method)
  · next noun rest _ _ _ _ _ segments =>
    rw [segments] at parts
    split at found
    · exact normal.names_of_keyBelowNoun? (parts noun List.mem_cons_self) found
    · exact normal.names_of_utilityKey? parts found
  · cases found

end Vocabulary

variable {definition normal : Definition} {route : Route}

/-- The path of an observed route begins with a slash, and its key is one of the module that can be
told apart in its text. -/
theorem path_and_key_of_mem_extract (normalized : definition.normalize = .ok normal)
    {source : String} (member : route ∈ extract source definition) :
    route.path.toList.head? = some '/' ∧
      (Vocabulary.ofDefinition definition).Names route.handlerKey := by
  have words := Vocabulary.isNormal_ofDefinition normalized
  rw [extract, routesOf_eq_blocks] at member
  obtain ⟨block, _, found⟩ := List.mem_filterMap.mp member
  obtain ⟨key, named, rfl⟩ := Option.map_eq_some_iff.mp found
  refine ⟨head?_cleanPath block.path, ?_⟩
  split at named
  · exact words.names_of_keyOfLabel? named
  · exact words.names_of_keyOfPath? named

theorem ofFileText_write {path : String} (json : extension? path = some "json")
    {routes : List Route} (wellFormed : ∀ route ∈ routes, route.handlerKey.IsWellFormed)
    (pretty : Bool) (definition : Definition) :
    ofFileText path (String.ofList ((Route.listJson routes).write pretty 0)) definition =
      .ok routes := by
  unfold ofFileText
  rw [json]
  exact Outcome.mapError_eq_ok_iff.mpr (Route.listOfJsonText_write wellFormed pretty)

theorem load_of_readText {disk : Disk} {path text : String}
    (holds : disk.tree.readText disk.current path = .ok text) (definition : Definition) :
    (load path definition : StateM Disk (Except Fault (List Route))) disk =
      (ofFileText path text definition, disk) := by
  have read : (Store.readText path : StateM Disk (Except FileFault String)) disk =
      (.ok text, disk) := Prod.ext holds rfl
  unfold load
  simp only [bind, StateT.bind, read]
  rfl

/-- **Stored routes.** For a definition that has a normal form, the routes of every source have
paths that begin with a slash, and keys of its module that have a resource exactly if they are ones
of a resource and that are read back from their texts. From every file with the JSON text of these
routes, compact or not, they are loaded as they are, so that a check against any table gives the
same report. -/
theorem extract_stored (normalized : definition.normalize = .ok normal) (source : String) :
    (∀ route ∈ extract source definition,
      route.path.toList.head? = some '/' ∧
      route.handlerKey.moduleId = normal.moduleId ∧
      (route.handlerKey.kind = .resource ↔ route.handlerKey.resource.isSome = true) ∧
      HandlerKey.parse route.handlerKey.text = .ok route.handlerKey) ∧
    ∀ (pretty : Bool) (path : String) (disk : Disk), extension? path = some "json" →
      disk.tree.readText disk.current path = .ok
        (String.ofList ((Route.listJson (extract source definition)).write pretty 0)) →
      ∃ observed, (load path definition : StateM Disk (Except Fault (List Route))) disk =
          (.ok observed, disk) ∧
        observed = extract source definition ∧
        ∀ table, Conformance.check table observed =
          Conformance.check table (extract source definition) := by
  have described := fun route => @path_and_key_of_mem_extract _ _ route normalized source
  constructor
  · intro route member
    obtain ⟨rooted, moduleId, wellFormed⟩ := described route member
    refine ⟨rooted, ?_, ?_, HandlerKey.parse_text wellFormed⟩
    · rw [moduleId, Vocabulary.ofDefinition, normalized]
    · rw [wellFormed.noun, decide_eq_true_iff]
  · intro pretty path disk json holds
    refine ⟨extract source definition, ?_, rfl, fun _ => rfl⟩
    rw [load_of_readText holds, ofFileText_write json fun route member =>
      (described route member).2.wellFormed]

/-- A source with an action that holds a blank and quotes, and with a label that names a resource
which the definition does not declare. -/
def oddStubs : String :=
  "router.get('dashboard/top \"ten\"/', send);\n" ++
    "router.patch('/x', reply(\x7b section: 'Old Orders', action: 'pay' \x7d));"

/-- A disk with a text in the one file on it. -/
def diskOf (text : String) : Disk := ⟨⟨[(["observed.json"], .file (.text text))]⟩, []⟩

theorem readText_diskOf (text : String) :
    (diskOf text).tree.readText (diskOf text).current "observed.json" = .ok text := by
  have plain : "observed.json".contains (Char.ofNat 0) = false := by simp
  exact Tree.readText_eq_ok_iff.mpr ⟨["observed.json"],
    Tree.follow_eq_ok_iff.mpr ⟨by decide, plain, rfl⟩, rfl⟩

theorem extract_stored_oddStubs :
    (Definition.template "Hub" "listings" "tags" "audits").normalize =
      .ok (Definition.template "hub" "listings" "tags" "audits") ∧
    ∃ routes, extract oddStubs (Definition.template "Hub" "listings" "tags" "audits") =
        routes ∧ routes.length = 2 ∧
      (∀ route ∈ routes, route.path.toList.head? = some '/' ∧
        route.handlerKey.moduleId = "hub" ∧
        (route.handlerKey.kind = .resource ↔ route.handlerKey.resource.isSome = true) ∧
        HandlerKey.parse route.handlerKey.text = .ok route.handlerKey) ∧
      ∃ observed, (load "observed.json" (Definition.template "Hub" "listings" "tags"
          "audits") : StateM Disk (Except Fault (List Route)))
            (diskOf (String.ofList ((Route.listJson routes).write true 0))) =
              (.ok observed, diskOf (String.ofList ((Route.listJson routes).write true 0))) ∧
        observed = routes ∧
        ∀ table, Conformance.check table observed = Conformance.check table routes := by
  have normalized : (Definition.template "Hub" "listings" "tags" "audits").normalize =
      .ok (Definition.template "hub" "listings" "tags" "audits") := by decide +kernel
  have json : extension? "observed.json" = some "json" := by decide +kernel
  obtain ⟨described, stored⟩ := extract_stored normalized oddStubs
  exact ⟨normalized, _, rfl, by decide +kernel, described,
    stored true _ _ json (readText_diskOf _)⟩

end Registration

end ModuleRoutes
