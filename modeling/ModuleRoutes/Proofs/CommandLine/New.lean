import ModuleRoutes.Proofs.CommandLine.Invocation
import ModuleRoutes.Proofs.Compiler.Layout
import ModuleRoutes.Proofs.Definition.TomlText
import ModuleRoutes.Proofs.Files.Create

/-!
# New definitions

A run of `new` compiles the template of its names first, and writes it only where the path of its
file leads nowhere. The file that it writes holds the template, so that it is read and compiled to
the same table (`ModuleRoutes.CommandLine.run_new`). It is a new file if the path of the definitions
directory is settled; a path that leads nowhere and goes up somewhere may hide a file that is there
(`ModuleRoutes.CommandLine.new_overwrites_detour`).
-/

namespace ModuleRoutes

namespace CommandLine

open Files

variable {before after : Transcript × Disk} {disk left : Disk} {settings : Settings}
  {table : RouteTable} {definition : Definition}

/-- The path of the definition file of a module. -/
def definitionPath (settings : Settings) (table : RouteTable) : String :=
  join settings.definitionsDir (table.moduleId ++ ".toml")

/-- What a run of `new` prints when it has written the definition of a module. -/
def createdText (settings : Settings) (table : RouteTable) : String :=
  "✅ Created " ++ definitionPath settings table ++ " (" ++ toString table.routes.length ++
    " routes)" ++ "\n"

/-- A run of `new` that went through: the template compiled, nothing was where its file goes, and
the file was written once its directory was made. -/
structure Creates (settings : Settings) (definition : Definition) (disk : Disk)
    (table : RouteTable) (left : Disk) : Prop where
  compiled : settings.compiler.compile definition = .ok table
  absent : ∀ entry, disk.tree.find disk.current (definitionPath settings table) ≠ .ok entry
  files : ∃ made tree, disk.tree.makeDirectories disk.current settings.definitionsDir = .ok made ∧
    made.writeText disk.current (definitionPath settings table) definition.tomlText = .ok tree ∧
    left = { disk with tree := tree }

theorem leads_isPresent_iff {path : String} {present : Bool} :
    Leads (Store.isPresent path) before present after ↔
      present = (before.2.tree.find before.2.current path).isOk ∧ after = before := by
  refine (asks_isPresent path).leads_iff.trans (and_congr_left' (iff_of_eq (congrArg _ ?_)))
  simp only [Store.isPresent, StateT.run, bind, StateT.bind, get, getThe, MonadStateOf.get,
    StateT.get, pure]
  cases before.2.tree.find before.2.current path <;> rfl

/-- Making a directory, writing a file of it and saying so. -/
theorem leads_put_iff {directory path text makeFailure writeFailure line : String} :
    Leads (do
        orFailOnFile makeFailure (← Store.makeDirectories directory)
        orFailOnFile writeFailure (← Store.writeText path text)
        printLine line) before () after ↔
      ∃ made tree, before.2.tree.makeDirectories before.2.current directory = .ok made ∧
        made.writeText before.2.current path text = .ok tree ∧
        after = ({ before.1 with output := before.1.output ++ (line ++ "\n") },
          { before.2 with tree := tree }) := by
  simp only [leads_bind_iff, leads_orFailOnFile_iff, leads_printLine_iff]
  constructor
  · rintro ⟨_, _, makes, _, _, ⟨rfl, rfl⟩, _, _, writes, _, _, ⟨rfl, rfl⟩, rfl⟩
    obtain ⟨made, making, rfl⟩ := leads_change_iff.mp makes
    obtain ⟨tree, writing, rfl⟩ := leads_change_iff.mp writes
    exact ⟨made, tree, making, writing, rfl⟩
  · rintro ⟨made, tree, making, writing, rfl⟩
    exact ⟨_, _, leads_change_iff.mpr ⟨made, making, rfl⟩, (), _, ⟨rfl, rfl⟩, _, _,
      leads_change_iff.mpr ⟨tree, writing, rfl⟩, (), _, ⟨rfl, rfl⟩, rfl⟩

variable {moduleId primary secondaryA secondaryB : String}

/-- A run of `new` succeeds when it goes through all of its steps. -/
theorem leads_runNew_iff :
    Leads (runNew settings moduleId primary secondaryA secondaryB) before () after ↔
      ∃ table, Creates settings (Definition.template moduleId primary secondaryA secondaryB)
          before.2 table after.2 ∧
        after.1 = { before.1 with output := before.1.output ++ createdText settings table } := by
  unfold runNew
  simp only [leads_bind_iff, leads_orFail_iff, leads_isPresent_iff]
  constructor
  · rintro ⟨table, _, ⟨compiled, rfl⟩, _, _, ⟨rfl, rfl⟩, ends⟩
    split at ends
    · exact absurd (leads_bind_iff.mp ends) fun ⟨_, _, failed, _⟩ => not_leads_fail failed
    · next vacant =>
      obtain ⟨made, tree, makes, writes, rfl⟩ := leads_put_iff.mp ends
      refine ⟨table, ⟨compiled, fun entry found => ?_, made, tree, makes, writes, rfl⟩, rfl⟩
      exact vacant (by rw [← definitionPath, found]; rfl)
  · rintro ⟨table, creates, printed⟩
    obtain ⟨made, tree, makes, writes, left⟩ := creates.files
    refine ⟨table, _, ⟨creates.compiled, rfl⟩, _, _, ⟨rfl, rfl⟩, ?_⟩
    rw [if_neg]
    · exact leads_put_iff.mpr ⟨made, tree, makes, writes, Prod.ext printed left⟩
    · intro present
      obtain ⟨entry, found⟩ := Outcome.exists_eq_ok present
      exact creates.absent entry found

/-- Names that do not compile stop a run of `new` before it does anything. -/
theorem exists_stops_runNew (refused : ∀ table, settings.compiler.compile
      (Definition.template moduleId primary secondaryA secondaryB) ≠ .ok table) :
    ∃ failure, failure.code = 1 ∧
      Stops (runNew settings moduleId primary secondaryA secondaryB) before failure before := by
  cases compiled : settings.compiler.compile
      (Definition.template moduleId primary secondaryA secondaryB) with
  | ok table => exact absurd compiled (refused table)
  | error fault =>
      obtain ⟨failure, code, stops⟩ : ∃ failure : Failure, failure.code = 1 ∧
          Stops (orFail (.error fault : Except Fault RouteTable)) before failure before :=
        exists_stops_orFail fault before
      rw [← compiled] at stops
      exact ⟨failure, code, stops.bind _⟩

/-- A path that leads somewhere stops a run of `new` before it does anything. -/
theorem stops_runNew {entry : Entry} (compiled : settings.compiler.compile
      (Definition.template moduleId primary secondaryA secondaryB) = .ok table)
    (found : before.2.tree.find before.2.current (definitionPath settings table) = .ok entry) :
    Stops (runNew settings moduleId primary secondaryA secondaryB) before
      (.messages (definitionPath settings table ++ " already exists") []) before := by
  unfold runNew
  refine (leads_orFail_iff.mpr ⟨compiled, rfl⟩).bind_stops ?_
  refine (leads_isPresent_iff.mpr ⟨rfl, rfl⟩).bind_stops ?_
  rw [if_pos (by rw [← definitionPath, found]; rfl)]
  exact Stops.bind stops_throw _

/-! ## The file of a new definition -/

theorem isFileName_of_moduleId (isToken : Name.IsToken table.moduleId) :
    Tree.IsFileName (table.moduleId ++ ".toml") :=
  Tree.isFileName_append isToken.slash_not_mem (by decide) (by decide)

theorem extension?_definitionPath (isToken : Name.IsToken table.moduleId) :
    extension? (definitionPath settings table) = some "toml" := by
  have dotFree : '.' ∉ table.moduleId.toList := by
    intro dot
    rcases isToken.mem_toList dot with hyphen | letter
    · cases hyphen
    · exact absurd letter (by decide)
  have filled : table.moduleId ≠ "" := by
    intro empty
    exact isToken.toList_ne_nil (by rw [empty]; rfl)
  have pieces : Text.pieces '.' (table.moduleId ++ ".toml") = [table.moduleId, "toml"] := by
    have ending : (table.moduleId ++ ".toml").toList =
        table.moduleId.toList ++ '.' :: "toml".toList := String.toList_append
    rw [Text.pieces, ending, Text.splitOn_append_cons, Text.splitOn_of_not_mem dotFree,
      Text.splitOn_of_not_mem (by decide)]
    simp
  unfold extension? definitionPath
  rw [Tree.fileName?_join _ (isFileName_of_moduleId isToken)]
  simp [pieces, filled]

namespace Creates

theorem normalize_moduleId (creates : Creates settings definition disk table left) :
    Name.normalize definition.moduleId = .ok table.moduleId := by
  obtain ⟨normal, normalized, _, _, _, rfl⟩ := Compiler.compile_eq_ok_iff.mp creates.compiled
  obtain ⟨_, _, _, _, _, named, rfl⟩ := Definition.normalize_eq_ok_iff.mp normalized
  exact named

/-- The file of a new definition, and what has become of the other files. -/
theorem exists_directory (creates : Creates settings definition disk table left)
    (sound : disk.tree.IsSound disk.current) (filled : settings.definitionsDir ≠ "") :
    ∃ directory, left.tree.follow left.current settings.definitionsDir = .ok directory ∧
      left.tree.get? directory = some .directory ∧
      disk.tree.PutsFile left.tree (directory ++ [table.moduleId ++ ".toml"])
        definition.tomlText ∧
      (disk.tree.IsSettled disk.current settings.definitionsDir →
        disk.tree.AddsFile left.tree (directory ++ [table.moduleId ++ ".toml"])
          definition.tomlText) ∧
      loaded left (definitionPath settings table) = .ok definition := by
  have isToken := Name.isToken_of_normalize creates.normalize_moduleId
  obtain ⟨made, tree, makes, writes, rfl⟩ := creates.files
  obtain ⟨directory, leads, here, leadsFile, puts, adds⟩ :=
    Tree.create_spec sound filled (isFileName_of_moduleId isToken) makes writes
  refine ⟨directory, leads, here, puts, fun settled => adds settled creates.absent, ?_⟩
  have read : tree.readText disk.current (definitionPath settings table) =
      .ok definition.tomlText := Tree.readText_eq_ok_iff.mpr ⟨_, leadsFile, puts.holds⟩
  have opened : loaded { disk with tree := tree } (definitionPath settings table) =
      Definition.ofFileText (definitionPath settings table) definition.tomlText :=
    loaded_of_readText read
  rw [opened, Definition.ofFileText, extension?_definitionPath isToken]
  change (Definition.ofTomlText definition.tomlText).mapError Fault.toml = _
  rw [Definition.ofTomlText_tomlText]
  rfl

end Creates

/-! ## Runs of the command line -/

variable {environment : Environment} {arguments : List String} {invocation : Invocation}

theorem run_new_eq_zero_iff {printed errors : String}
    (parsed : parse environment arguments = .ok invocation)
    (asked : invocation.command = .new moduleId primary secondaryA secondaryB) :
    (run environment arguments : StateM Disk Outcome).run disk = (⟨0, printed, errors⟩, left) ↔
      ∃ settings table, invocationSettings invocation disk = .ok settings ∧
        Creates settings (Definition.template moduleId primary secondaryA secondaryB) disk table
          left ∧
        printed = createdText settings table ∧ errors = "" := by
  unfold run
  rw [parsed, finish_eq_zero_iff, leads_runInvocation_iff, asked]
  simp only [runCommand, leads_runNew_iff]
  constructor
  · rintro ⟨settings, chosen, table, creates, same⟩
    rw [String.empty_append, Transcript.mk.injEq] at same
    exact ⟨settings, table, chosen, creates, same⟩
  · rintro ⟨settings, table, chosen, creates, rfl, rfl⟩
    refine ⟨settings, chosen, table, creates, ?_⟩
    rw [String.empty_append]

/-- A run of `new` that is stopped before it does anything. -/
theorem run_new_of_stops {failure : Failure}
    (parsed : parse environment arguments = .ok invocation)
    (asked : invocation.command = .new moduleId primary secondaryA secondaryB)
    (chosen : invocationSettings invocation disk = .ok settings) (code : failure.code = 1)
    (stops : Stops (runNew settings moduleId primary secondaryA secondaryB) (⟨"", ""⟩, disk) failure
      (⟨"", ""⟩, disk)) :
    (run environment arguments : StateM Disk Outcome).run disk = (⟨1, "", failure.text⟩, disk) := by
  have runs : Stops (runCommand settings invocation.command) (⟨"", ""⟩, disk) failure
      (⟨"", ""⟩, disk) := by
    rw [asked]
    exact stops
  have stopped : Stops (runInvocation invocation) (⟨"", ""⟩, disk) failure (⟨"", ""⟩, disk) :=
    stops_runInvocation chosen runs
  have ended := stopped.finish
  rw [String.empty_append, code] at ended
  unfold run
  rw [parsed]
  exact ended

/-- **A new definition.** A run of `new` that succeeds has written one file, directly inside the
definitions directory and named after the module id in its normal form. The file is read as the
template, which is compiled to 28 routes, and no other file has changed; if the path of the
definitions directory is settled, the file was not there before. When the names do not compile, or
something is where the file would go, the run fails and leaves the disk as it is. -/
theorem run_new {environment : Environment} {arguments : List String} {invocation : Invocation}
    {moduleId primary secondaryA secondaryB : String} {disk left : Disk} {outcome : Outcome}
    (parsed : parse environment arguments = .ok invocation)
    (asked : invocation.command = .new moduleId primary secondaryA secondaryB)
    (sound : disk.tree.IsSound disk.current)
    (ran : (run environment arguments : StateM Disk Outcome).run disk = (outcome, left)) :
    (outcome.code = 0 → ∃ settings table directory,
      invocationSettings invocation disk = .ok settings ∧
      settings.compiler.compile (Definition.template moduleId primary secondaryA secondaryB) =
        .ok table ∧
      Name.normalize moduleId = .ok table.moduleId ∧ table.routes.length = moduleRouteCount ∧
      outcome = ⟨0, createdText settings table, ""⟩ ∧
      left.tree.follow left.current settings.definitionsDir = .ok directory ∧
      left.tree.get? directory = some .directory ∧
      disk.tree.PutsFile left.tree (directory ++ [table.moduleId ++ ".toml"])
        (Definition.template moduleId primary secondaryA secondaryB).tomlText ∧
      (disk.tree.IsSettled disk.current settings.definitionsDir →
        disk.tree.AddsFile left.tree (directory ++ [table.moduleId ++ ".toml"])
          (Definition.template moduleId primary secondaryA secondaryB).tomlText) ∧
      loaded left (definitionPath settings table) =
        .ok (Definition.template moduleId primary secondaryA secondaryB)) ∧
    ∀ settings, invocationSettings invocation disk = .ok settings →
      ((∀ table, settings.compiler.compile
            (Definition.template moduleId primary secondaryA secondaryB) ≠ .ok table) →
        outcome.code = 1 ∧ left = disk) ∧
      ∀ table entry, settings.compiler.compile
          (Definition.template moduleId primary secondaryA secondaryB) = .ok table →
        disk.tree.find disk.current (definitionPath settings table) = .ok entry →
        outcome = ⟨1, "", "Error: " ++ (definitionPath settings table ++ " already exists") ++
          "\n"⟩ ∧ left = disk := by
  refine ⟨fun succeeded => ?_, fun settings chosen => ⟨fun refused => ?_, ?_⟩⟩
  · obtain ⟨code, printed, errors⟩ := outcome
    obtain rfl : code = 0 := succeeded
    obtain ⟨settings, table, chosen, creates, rfl, rfl⟩ :=
      (run_new_eq_zero_iff parsed asked).mp ran
    obtain ⟨directory, leads, here, puts, adds, reads⟩ :=
      creates.exists_directory sound (definitionsDir_ne_empty parsed chosen)
    exact ⟨settings, table, directory, chosen, creates.compiled, creates.normalize_moduleId,
      Compiler.length_routes_of_compile creates.compiled, rfl, leads, here, puts, adds, reads⟩
  · obtain ⟨failure, code, stops⟩ := exists_stops_runNew refused
    have stopped := run_new_of_stops parsed asked chosen code stops
    obtain ⟨rfl, rfl⟩ := Prod.mk.inj (ran.symm.trans stopped)
    exact ⟨rfl, rfl⟩
  · intro table entry compiled found
    have stopped := run_new_of_stops parsed asked chosen rfl (stops_runNew compiled found)
    exact Prod.mk.inj (ran.symm.trans stopped)

/-! ## Two projects -/

/-- A run of `new` that goes through, step by step. -/
theorem exists_creates {made tree : Tree} {path : String}
    (compiles : (settings.compiler.compile definition).toOption.any
      (fun table => table.moduleId = moduleId) = true)
    (joined : join settings.definitionsDir (moduleId ++ ".toml") = path)
    (absent : (disk.tree.find disk.current path).isOk = false)
    (makes : disk.tree.makeDirectories disk.current settings.definitionsDir = .ok made)
    (writes : made.writeText disk.current path definition.tomlText = .ok tree) :
    ∃ table, table.moduleId = moduleId ∧ definitionPath settings table = path ∧
      Creates settings definition disk table { disk with tree := tree } := by
  obtain ⟨table, compiled, named⟩ := Outcome.exists_of_any_toOption compiles
  have name : table.moduleId = moduleId := of_decide_eq_true named
  have goes : definitionPath settings table = path := by rw [definitionPath, name, joined]
  refine ⟨table, name, goes, compiled, fun entry found => ?_, made, tree, makes, ?_, rfl⟩
  · rw [goes] at found
    rw [found] at absent
    cases absent
  · rw [goes]
    exact writes

/-- A project without settings and without definitions. -/
def bareProject : Disk := ⟨⟨[(["project"], .directory)]⟩, ["project"]⟩

/-- A project that names its definitions directory by way of a directory that is not there. -/
def detour : Disk :=
  ⟨⟨[(["project"], .directory),
    (["project", "forge.toml"],
      .file (.text "definitions_dir = \"build/../definitions\"\n")),
    (["project", "definitions"], .directory),
    (["project", "definitions", "seo.toml"], .file (.text "# seo\n"))]⟩, ["project"]⟩

def bareSettings : Settings :=
  ⟨"/project/definitions", "/project/generated/routes", "/api", none, "info"⟩

def detourSettings : Settings :=
  { bareSettings with definitionsDir := "/project/build/../definitions" }

/-- The template of a module whose resources are not named. -/
def unnamed (moduleId : String) : Definition :=
  Definition.template moduleId "items" "rules" "logs"

theorem parse_new : ∀ moduleId ∈ ["Seller Hub", "seo"], parse [] ["new", moduleId] =
    .ok ⟨none, none, none, .new moduleId "items" "rules" "logs"⟩ := by
  decide +kernel

theorem isSound_bareProject : bareProject.tree.IsSound bareProject.current := by
  refine ⟨fun pair member => ?_, rfl⟩
  obtain rfl := List.mem_singleton.mp member
  rfl

theorem settings_bareProject :
    invocationSettings ⟨none, none, none, .new "Seller Hub" "items" "rules" "logs"⟩ bareProject =
      .ok bareSettings := by
  unfold invocationSettings projectSettings Settings.load
  simp only [Store.isFile, Tree.find, Tree.follow, String.contains_char_eq]
  decide +kernel

theorem exists_creates_bareProject : ∃ table left, table.moduleId = "seller-hub" ∧
    definitionPath bareSettings table = "/project/definitions/seller-hub.toml" ∧
    Creates bareSettings (unnamed "Seller Hub") bareProject table left := by
  have compiles : (bareSettings.compiler.compile (unnamed "Seller Hub")).toOption.any
      (fun table => table.moduleId = "seller-hub") = true := by decide +kernel
  have joined : join bareSettings.definitionsDir ("seller-hub" ++ ".toml") =
      "/project/definitions/seller-hub.toml" := by decide +kernel
  have absent : (bareProject.tree.find bareProject.current
      "/project/definitions/seller-hub.toml").isOk = false := by
    unfold Tree.find Tree.follow
    simp only [String.contains_char_eq]
    decide +kernel
  have makes : bareProject.tree.makeDirectories bareProject.current bareSettings.definitionsDir =
      .ok (bareProject.tree.set ["project", "definitions"] .directory) := by
    unfold Tree.makeDirectories
    simp only [String.contains_char_eq]
    decide +kernel
  have writes : ∀ text, (bareProject.tree.set ["project", "definitions"] .directory).writeText
      bareProject.current "/project/definitions/seller-hub.toml" text =
        .ok ((bareProject.tree.set ["project", "definitions"] .directory).set
          ["project", "definitions", "seller-hub.toml"] (.file (.text text))) := by
    intro text
    unfold Tree.writeText
    simp only [String.contains_char_eq]
    rfl
  obtain ⟨table, creates⟩ := exists_creates compiles joined absent makes (writes _)
  exact ⟨table, _, creates⟩

theorem run_new_bareProject : ∃ left directory,
    (run [] ["new", "Seller Hub"] : StateM Disk Outcome).run bareProject =
        (⟨0, "✅ Created /project/definitions/seller-hub.toml (28 routes)\n", ""⟩, left) ∧
      left.tree.follow left.current "/project/definitions" = .ok directory ∧
      bareProject.tree.AddsFile left.tree (directory ++ ["seller-hub.toml"])
        (unnamed "Seller Hub").tomlText ∧
      loaded left "/project/definitions/seller-hub.toml" = .ok (unnamed "Seller Hub") := by
  have parsed := parse_new "Seller Hub" (by decide)
  obtain ⟨table, left, named, path, creates⟩ := exists_creates_bareProject
  have ran := (run_new_eq_zero_iff parsed rfl).mpr
    ⟨bareSettings, table, settings_bareProject, creates, rfl, rfl⟩
  obtain ⟨settings, compiledTable, directory, chosen, compiled, _, count, _, leads, _, _, adds,
    reads⟩ := (run_new parsed rfl isSound_bareProject ran).1 rfl
  obtain rfl := Except.ok.inj (settings_bareProject.symm.trans chosen)
  obtain rfl := Except.ok.inj (creates.compiled.symm.trans compiled)
  have printed : createdText bareSettings table =
      "✅ Created /project/definitions/seller-hub.toml (28 routes)\n" := by
    delta createdText
    rw [path, count]
    decide +kernel
  have settled : bareProject.tree.IsSettled bareProject.current "/project/definitions" :=
    .inr (by decide +kernel)
  have added := adds settled
  rw [named] at added
  rw [path] at reads
  exact ⟨left, directory, ran.trans (by rw [printed]), leads, added, reads⟩

theorem isSound_detour : detour.tree.IsSound detour.current := by
  refine ⟨fun pair member => ?_, rfl⟩
  simp only [detour, List.mem_cons, List.not_mem_nil, or_false] at member
  rcases member with rfl | rfl | rfl | rfl <;> rfl

theorem settings_detour :
    invocationSettings ⟨none, none, none, .new "seo" "items" "rules" "logs"⟩ detour =
      .ok detourSettings := by
  unfold invocationSettings projectSettings Settings.load
  simp only [Store.isFile, Store.readText, Tree.readText, Tree.find, Tree.follow,
    String.contains_char_eq]
  decide +kernel

/-- The tree of the detour once a text has been written to its definition file. -/
def detourWith (text : String) : Tree :=
  (detour.tree.set ["project", "build"] .directory).set ["project", "definitions", "seo.toml"]
    (.file (.text text))

theorem exists_creates_detour : ∃ table,
    definitionPath detourSettings table = "/project/build/../definitions/seo.toml" ∧
    Creates detourSettings (unnamed "seo") detour table
      { detour with tree := detourWith (unnamed "seo").tomlText } := by
  have compiles : (detourSettings.compiler.compile (unnamed "seo")).toOption.any
      (fun table => table.moduleId = "seo") = true := by decide +kernel
  have joined : join detourSettings.definitionsDir ("seo" ++ ".toml") =
      "/project/build/../definitions/seo.toml" := by decide +kernel
  have absent : (detour.tree.find detour.current
      "/project/build/../definitions/seo.toml").isOk = false := by
    unfold Tree.find Tree.follow
    simp only [String.contains_char_eq]
    decide +kernel
  have makes : detour.tree.makeDirectories detour.current detourSettings.definitionsDir =
      .ok (detour.tree.set ["project", "build"] .directory) := by
    unfold Tree.makeDirectories
    simp only [String.contains_char_eq]
    decide +kernel
  have writes : ∀ text, (detour.tree.set ["project", "build"] .directory).writeText
      detour.current "/project/build/../definitions/seo.toml" text = .ok (detourWith text) := by
    intro text
    unfold Tree.writeText
    simp only [String.contains_char_eq]
    rfl
  obtain ⟨table, _, creates⟩ := exists_creates compiles joined absent makes (writes _)
  exact ⟨table, creates⟩

/-- The text of a definition does not start with a comment. -/
theorem tomlText_ne_comment (definition : Definition) (rest : List Char) :
    definition.tomlText ≠ String.ofList ('#' :: rest) := by
  intro same
  have first := congrArg (fun text : String => text.toList.head?) same
  simp [Definition.tomlText, Toml.textEntry, Toml.entry] at first

/-- The definitions directory is there, and so is the file, but the path to them goes through a
directory that is not. Nothing is found, the directory is made, and the path then leads to the file:
the run succeeds and has replaced what was in it, and no file is new. -/
theorem new_overwrites_detour : detour.tree.IsSound detour.current ∧ ∃ left,
    (run [] ["new", "seo"] : StateM Disk Outcome).run detour =
        (⟨0, "✅ Created /project/build/../definitions/seo.toml (28 routes)\n", ""⟩, left) ∧
      detour.tree.get? ["project", "definitions", "seo.toml"] =
        some (.file (.text "# seo\n")) ∧
      left.tree.get? ["project", "definitions", "seo.toml"] =
        some (.file (.text (unnamed "seo").tomlText)) ∧
      (unnamed "seo").tomlText ≠ "# seo\n" ∧
      ∀ place text, ¬detour.tree.AddsFile left.tree place text := by
  have parsed := parse_new "seo" (by decide)
  obtain ⟨table, path, creates⟩ := exists_creates_detour
  have ran := (run_new_eq_zero_iff parsed rfl).mpr
    ⟨detourSettings, table, settings_detour, creates, rfl, rfl⟩
  have printed : createdText detourSettings table =
      "✅ Created /project/build/../definitions/seo.toml (28 routes)\n" := by
    delta createdText
    rw [path, Compiler.length_routes_of_compile creates.compiled]
    decide +kernel
  have differ : (unnamed "seo").tomlText ≠ "# seo\n" := tomlText_ne_comment _ _
  have old : detour.tree.get? ["project", "definitions", "seo.toml"] =
      some (.file (.text "# seo\n")) := rfl
  have new : Tree.get? (detourWith (unnamed "seo").tomlText)
      ["project", "definitions", "seo.toml"] =
        some (.file (.text (unnamed "seo").tomlText)) := rfl
  refine ⟨isSound_detour, _, ran.trans (by rw [printed]), old, new, differ, ?_⟩
  intro place text adds
  -- The file that has changed was there, so it is no new one and would have to be as before.
  have other : ["project", "definitions", "seo.toml"] ≠ place := by
    rintro rfl
    rw [adds.vacant] at old
    cases old
  have kept := (adds.others _ (.text "# seo\n") other).mpr old
  rw [new] at kept
  simp [differ] at kept

end CommandLine

end ModuleRoutes
