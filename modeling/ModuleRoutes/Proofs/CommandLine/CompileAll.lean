import Mathlib.Data.List.Dedup
import Mathlib.Tactic.TFAE
import ModuleRoutes.Proofs.CommandLine.Invocation
import ModuleRoutes.Proofs.Compiler.Layout
import ModuleRoutes.Proofs.Files.Directories
import ModuleRoutes.Proofs.Files.Write
import ModuleRoutes.Proofs.Json.RoundTrip

/-!
# Compiling every definition

A run of `compile-all` that succeeds has read and compiled every definition file below its
directory, and has written one table for each. The file of a table is named after the module id in
its normal form, so a table that is written later replaces an earlier one with the same id
(`ModuleRoutes.CommandLine.run_compileAll`): the number that is printed is the number of files,
and every definition keeps its own table, exactly when no two definitions have the same id.
-/

namespace ModuleRoutes

namespace CommandLine

open Files

variable {before after : Transcript × Disk} {disk left : Disk} {directory : String}

/-! ## Reading -/

/-- The definition files below a directory of a disk. -/
def definitionPaths (disk : Disk) (directory : String) : Except FileFault (List String) :=
  (disk.tree.filesBelow disk.current directory).map (List.filter Definition.isDefinitionPath)

theorem leads_filesBelow_iff {outcome : Except FileFault (List String)} :
    Leads (Store.filesBelow directory) before outcome after ↔
      outcome = before.2.tree.filesBelow before.2.current directory ∧ after = before :=
  (asks_filesBelow directory).leads_iff

theorem leads_discover_iff {paths : List String} :
    Leads (discover directory) before paths after ↔
      definitionPaths before.2 directory = .ok paths ∧ after = before := by
  unfold discover definitionPaths
  rw [leads_bind_iff, Outcome.map_eq_ok_iff]
  simp only [leads_filesBelow_iff]
  constructor
  · rintro ⟨_, middle, ⟨rfl, rfl⟩, ends⟩
    cases files : middle.2.tree.filesBelow middle.2.current directory with
    | ok found =>
        rw [files] at ends
        obtain ⟨rfl, rfl⟩ := leads_pure_iff.mp ends
        exact ⟨⟨found, rfl, rfl⟩, rfl⟩
    | error fault =>
        rw [files] at ends
        exact absurd ends not_leads_throw
  · rintro ⟨⟨found, files, rfl⟩, rfl⟩
    exact ⟨_, after, ⟨files.symm, rfl⟩, leads_pure_iff.mpr ⟨rfl, rfl⟩⟩

/-- A file that holds no definition is counted, whatever the other files hold. -/
theorem not_leads_loadAll_of_error {path : String} {paths : List String}
    {definitions : List Definition} {fault : Fault} (found : loaded before.2 path = .error fault) :
    ¬Leads (loadAll (path :: paths)) before (definitions, 0) after := by
  intro ends
  rw [loadAll, leads_bind_iff] at ends
  simp only [leads_loadDefinition_iff] at ends
  obtain ⟨_, _, ⟨rfl, rfl⟩, ends⟩ := ends
  rw [found] at ends
  simp only [leads_bind_iff] at ends
  obtain ⟨_, _, _, _, _, _, ends⟩ := ends
  cases (leads_pure_iff.mp ends).1

theorem leads_loadAll_cons_iff {path : String} {paths : List String} {definition : Definition}
    {definitions : List Definition} (found : loaded before.2 path = .ok definition) :
    Leads (loadAll (path :: paths)) before (definitions, 0) after ↔
      ∃ others, definitions = definition :: others ∧
        Leads (loadAll paths) before (others, 0) after := by
  rw [loadAll, leads_bind_iff]
  simp only [leads_loadDefinition_iff]
  constructor
  · intro ends
    obtain ⟨_, _, ⟨rfl, rfl⟩, ends⟩ := ends
    rw [found] at ends
    simp only [leads_bind_iff] at ends
    obtain ⟨⟨others, failures⟩, _, loads, ends⟩ := ends
    obtain ⟨same, rfl⟩ := leads_pure_iff.mp ends
    cases same
    exact ⟨others, rfl, loads⟩
  · rintro ⟨others, rfl, loads⟩
    refine ⟨_, before, ⟨rfl, rfl⟩, ?_⟩
    rw [found]
    exact leads_bind_iff.mpr ⟨_, after, loads, leads_pure_iff.mpr ⟨rfl, rfl⟩⟩

/-- Loading comes to no failure exactly when every file holds a definition, and then prints
nothing. -/
theorem leads_loadAll_iff {paths : List String} {definitions : List Definition} :
    Leads (loadAll paths) before (definitions, 0) after ↔
      paths.mapM (loaded before.2) = .ok definitions ∧ after = before := by
  induction paths generalizing definitions with
  | nil =>
      rw [loadAll, leads_pure_iff, List.mapM_nil, Outcome.pure_eq_ok_iff, Prod.mk.injEq]
      simp
  | cons path paths ih =>
      rw [List.mapM_cons]
      cases found : loaded before.2 path with
      | error fault => exact iff_of_false (not_leads_loadAll_of_error found) nofun
      | ok definition =>
          rw [leads_loadAll_cons_iff found]
          simp only [ih, Outcome.bind_eq_ok_iff, Outcome.pure_eq_ok_iff, Except.ok.injEq]
          constructor
          · rintro ⟨others, rfl, read, rfl⟩
            exact ⟨⟨definition, rfl, others, read, rfl⟩, rfl⟩
          · rintro ⟨⟨_, rfl, others, read, rfl⟩, rfl⟩
            exact ⟨others, rfl, read, rfl⟩

/-! ## Writing tables -/

/-- The name of the file of a table, and what is written to it. -/
def tableFile (table : RouteTable) : String × String :=
  (table.moduleId ++ ".routes.json", table.toJson.pretty)

/-- A definition that failed is counted, whatever becomes of the others. -/
theorem not_leads_storeAll_of_error {fault : Fault} {results : List (Except Fault RouteTable)}
    {written : Nat} :
    ¬Leads (storeAll directory (.error fault :: results)) before (written, 0) after := by
  intro ends
  rw [storeAll] at ends
  simp only [leads_bind_iff] at ends
  obtain ⟨_, _, _, _, _, _, ends⟩ := ends
  cases (leads_pure_iff.mp ends).1

theorem leads_storeAll_cons_iff {table : RouteTable} {results : List (Except Fault RouteTable)}
    {written : Nat} :
    Leads (storeAll directory (.ok table :: results)) before (written, 0) after ↔
      ∃ tree count, before.2.tree.writeText before.2.current (tablePath directory table)
          table.toJson.pretty = .ok tree ∧ written = count + 1 ∧
        Leads (storeAll directory results) (before.1, { before.2 with tree := tree })
          (count, 0) after := by
  have step : (Store.writeText (tablePath directory table) table.toJson.pretty :
      Session (StateM Disk) _) = onStore (Disk.change fun tree current =>
        tree.writeText current (tablePath directory table) table.toJson.pretty) := rfl
  rw [storeAll]
  simp only [leads_bind_iff, step, leads_orFailOnFile_iff]
  constructor
  · rintro ⟨_, _, writes, _, _, ⟨rfl, rfl⟩, ⟨count, failures⟩, _, rest, ends⟩
    obtain ⟨tree, wrote, rfl⟩ := leads_change_iff.mp writes
    obtain ⟨same, rfl⟩ := leads_pure_iff.mp ends
    cases same
    exact ⟨tree, count, wrote, rfl, rest⟩
  · rintro ⟨tree, count, wrote, rfl, rest⟩
    exact ⟨_, _, leads_change_iff.mpr ⟨tree, wrote, rfl⟩, _, _, ⟨rfl, rfl⟩, (count, 0), _, rest,
      leads_pure_iff.mpr ⟨rfl, rfl⟩⟩

/-- Storing comes to no failure exactly when every result is a table and can be written. Each table
is counted, and nothing is printed. -/
theorem leads_storeAll_iff {results : List (Except Fault RouteTable)} {written : Nat} :
    Leads (storeAll directory results) before (written, 0) after ↔
      ∃ (tables : List RouteTable) (tree : Tree), results = tables.map .ok ∧
        written = tables.length ∧
        Tree.writeEach before.2.current directory before.2.tree (tables.map tableFile) = .ok tree ∧
        after = (before.1, { before.2 with tree := tree }) := by
  induction results generalizing before written with
  | nil =>
      rw [storeAll, leads_pure_iff]
      constructor
      · rintro ⟨⟨⟩, rfl⟩
        exact ⟨[], _, rfl, rfl, rfl, rfl⟩
      · rintro ⟨tables, tree, none, rfl, writes, rfl⟩
        cases List.map_eq_nil_iff.mp none.symm
        cases writes
        exact ⟨rfl, rfl⟩
  | cons result results ih =>
      cases result with
      | error fault =>
          apply iff_of_false not_leads_storeAll_of_error
          rintro ⟨tables, tree, same, _⟩
          cases tables <;> cases same
      | ok table =>
          rw [leads_storeAll_cons_iff]
          simp only [ih]
          constructor
          · rintro ⟨tree, _, wrote, rfl, tables, final, rfl, rfl, wroteRest, rfl⟩
            refine ⟨table :: tables, final, rfl, rfl, ?_, rfl⟩
            rw [Tree.writeEach, List.map_cons, List.foldlM_cons, Outcome.bind_eq_ok_iff]
            exact ⟨tree, wrote, wroteRest⟩
          · rintro ⟨tables, final, same, rfl, writes, rfl⟩
            cases tables with
            | nil => cases same
            | cons first tables =>
                obtain ⟨⟨⟩, rfl⟩ := List.cons.inj same
                rw [Tree.writeEach, List.map_cons, List.foldlM_cons, Outcome.bind_eq_ok_iff]
                  at writes
                obtain ⟨tree, wrote, wroteRest⟩ := writes
                exact ⟨tree, _, wrote, rfl, tables, final, rfl, rfl, wroteRest, rfl⟩

/-! ## A run with given settings -/

/-- A batch in which nothing failed. -/
theorem results?_eq_tables_iff {compiler : Compiler} {workers : Option Nat} {cores : Nat}
    {definitions : List Definition} {tables : List RouteTable} :
    Batch.results? compiler workers cores definitions = some (tables.map .ok) ↔
      Batch.width workers cores ≤ Batch.permitLimit ∧
        definitions.mapM compiler.compile = .ok tables := by
  rw [Outcome.mapM_eq_ok_iff, ← List.forall₂_map_right_iff, ← List.forall₂_map_left_iff,
    List.forall₂_eq_eq_eq, Batch.results?]
  by_cases fits : Batch.width workers cores ≤ Batch.permitLimit
  · rw [if_pos fits, Option.some.injEq, and_iff_right fits]
  · rw [if_neg fits]
    exact iff_of_false nofun fun both => fits both.1

variable {settings : Settings}

/-- A run of `compile-all` in which nothing failed: there were files, each held a definition, every
definition compiled, and the tables were written one after the other. -/
structure Compiles (settings : Settings) (disk : Disk) (tables : List RouteTable) (left : Disk) :
    Prop where
  sources : ∃ paths definitions, definitionPaths disk settings.definitionsDir = .ok paths ∧
    paths ≠ [] ∧ paths.mapM (loaded disk) = .ok definitions ∧
    definitions.mapM settings.compiler.compile = .ok tables
  pool : Batch.width settings.workers 1 ≤ Batch.permitLimit
  files : ∃ made tree, disk.tree.makeDirectories disk.current settings.outputDir = .ok made ∧
    Tree.writeEach disk.current settings.outputDir made (tables.map tableFile) = .ok tree ∧
    left = { disk with tree := tree }

/-- What a run of `compile-all` prints when it has written a number of tables. -/
def compileAllText (settings : Settings) (count : Nat) : String :=
  "▶️  Compiling definitions in " ++ settings.definitionsDir ++ "..." ++ "\n" ++
    ("✅ Wrote " ++ toString count ++ " route table(s) to " ++ settings.outputDir ++ "\n")

theorem compiles_of_leads (leads : Leads (runCompileAll settings) before () after) :
    ∃ tables, Compiles settings before.2 tables after.2 ∧ after.1 =
      { before.1 with output := before.1.output ++ compileAllText settings tables.length } := by
  unfold runCompileAll at leads
  simp only [leads_bind_iff, leads_printLine_iff, leads_discover_iff] at leads
  obtain ⟨_, _, rfl, paths, _, ⟨found, rfl⟩, ends⟩ := leads
  split at ends
  · exact absurd (leads_bind_iff.mp ends) fun ⟨_, _, failed, _⟩ => not_leads_fail failed
  · next present =>
    obtain ⟨⟨definitions, unread⟩, middle, loads, ends⟩ := leads_bind_iff.mp ends
    cases batch : Batch.results? settings.compiler settings.workers 1 definitions with
    | none =>
        simp only [batch] at ends
        exact absurd ends not_leads_throw
    | some results =>
        simp only [batch, leads_bind_iff, leads_orFailOnFile_iff, leads_printLine_iff] at ends
        obtain ⟨_, _, makes, _, _, ⟨rfl, rfl⟩, ⟨written, failed⟩, _, stores, _, _, rfl, ends⟩ :=
          ends
        split at ends
        · exact absurd ends not_leads_fail
        · next noFailure =>
          -- Nothing was counted as a failure, so both loops went through.
          have counts : unread = 0 ∧ failed = 0 := by
            dsimp only at noFailure
            omega
          obtain ⟨rfl, rfl⟩ := counts
          obtain ⟨_, rfl⟩ := leads_pure_iff.mp ends
          obtain ⟨read, rfl⟩ := leads_loadAll_iff.mp loads
          obtain ⟨made, making, rfl⟩ := leads_change_iff.mp makes
          obtain ⟨tables, tree, rfl, rfl, writing, rfl⟩ := leads_storeAll_iff.mp stores
          obtain ⟨fits, compiled⟩ := results?_eq_tables_iff.mp batch
          have nonempty : paths ≠ [] := fun none => present (List.isEmpty_iff.mpr none)
          refine ⟨tables, ⟨⟨paths, definitions, found, nonempty, read, compiled⟩, fits,
            ⟨made, tree, making, writing, rfl⟩⟩, ?_⟩
          dsimp only
          rw [String.append_assoc]
          rfl

theorem leads_of_compiles {tables : List RouteTable}
    (compiles : Compiles settings before.2 tables after.2)
    (printed : after.1 =
      { before.1 with output := before.1.output ++ compileAllText settings tables.length }) :
    Leads (runCompileAll settings) before () after := by
  obtain ⟨paths, definitions, found, nonempty, read, compiled⟩ := compiles.sources
  obtain ⟨made, tree, making, writing, left⟩ := compiles.files
  have batch := results?_eq_tables_iff.mpr ⟨compiles.pool, compiled⟩
  unfold runCompileAll
  simp only [leads_bind_iff, leads_printLine_iff, leads_discover_iff]
  refine ⟨(), _, rfl, paths, _, ⟨found, rfl⟩, ?_⟩
  rw [if_neg fun none => nonempty (List.isEmpty_iff.mp none)]
  apply leads_bind_iff.mpr
  refine ⟨(definitions, 0), _, leads_loadAll_iff.mpr ⟨read, rfl⟩, ?_⟩
  simp only [batch, leads_bind_iff, leads_orFailOnFile_iff, leads_printLine_iff]
  refine ⟨_, _, leads_change_iff.mpr ⟨made, making, rfl⟩, (), _, ⟨rfl, rfl⟩, (tables.length, 0),
    _, leads_storeAll_iff.mpr ⟨tables, tree, rfl, rfl, writing, rfl⟩, (), _, rfl, ?_⟩
  dsimp only
  rw [if_neg (not_not.mpr (Nat.zero_add 0)), leads_pure_iff]
  refine ⟨rfl, Prod.ext ?_ left⟩
  dsimp only
  rw [printed, String.append_assoc]
  rfl

/-! ## What the files hold -/

theorem isFileName_of_isToken {moduleId : String} (isToken : Name.IsToken moduleId) :
    Tree.IsFileName (moduleId ++ ".routes.json") :=
  Tree.isFileName_append isToken.slash_not_mem (by decide) (by decide)

namespace Compiles

variable {tables : List RouteTable} {table other : RouteTable}

theorem isFileName (compiles : Compiles settings disk tables left) (member : table ∈ tables) :
    Tree.IsFileName (tableFile table).1 := by
  obtain ⟨_, definitions, _, _, _, compiled⟩ := compiles.sources
  obtain ⟨definition, _, gives⟩ := Outcome.exists_of_mem_mapM compiled member
  obtain ⟨normal, normalized, _, _, _, rfl⟩ := Compiler.compile_eq_ok_iff.mp gives
  exact isFileName_of_isToken (Definition.tokens_of_normalize normalized).1

/-- Two tables go to one file exactly when they have the same module id. -/
theorem tablePath_eq_iff (compiles : Compiles settings disk tables left) (member : table ∈ tables)
    (otherMember : other ∈ tables) :
    tablePath settings.outputDir table = tablePath settings.outputDir other ↔
      table.moduleId = other.moduleId := by
  constructor
  · intro same
    have names : (tableFile table).1 = (tableFile other).1 :=
      Tree.join_inj (compiles.isFileName member) (compiles.isFileName otherMember) same
    exact (String.append_left_inj _).mp names
  · intro same
    rw [tablePath, tablePath, same]

/-- The file of a table holds it, unless a table with the same module id was written later. -/
theorem readText_tablePath (compiles : Compiles settings disk tables left)
    (sound : disk.tree.IsSound disk.current) {earlier later : List RouteTable}
    (position : tables = earlier ++ table :: later)
    (last : ∀ other ∈ later, other.moduleId ≠ table.moduleId) :
    left.tree.readText left.current (tablePath settings.outputDir table) =
      .ok table.toJson.pretty := by
  obtain ⟨made, tree, makes, writes, rfl⟩ := compiles.files
  have names : ∀ file ∈ tables.map tableFile, Tree.IsFileName file.1 := by
    intro file member
    obtain ⟨written, inTables, rfl⟩ := List.mem_map.mp member
    exact compiles.isFileName inTables
  have split : tables.map tableFile =
      earlier.map tableFile ++ tableFile table :: later.map tableFile := by
    rw [position, List.map_append, List.map_cons]
  rw [split] at names writes
  apply Tree.readText_of_writeEach (sound.makeDirectories makes) names writes
  intro file member same
  obtain ⟨written, inLater, rfl⟩ := List.mem_map.mp member
  exact last written inLater ((String.append_left_inj _).mp same)

/-- The tables have files of their own, and as many files as there are tables, exactly when their
module ids are different. -/
theorem tfae (compiles : Compiles settings disk tables left)
    (sound : disk.tree.IsSound disk.current) :
    [(tables.map RouteTable.moduleId).Nodup,
      (tables.map (tablePath settings.outputDir)).Nodup ∧ ∀ table ∈ tables,
        left.tree.readText left.current (tablePath settings.outputDir table) =
          .ok table.toJson.pretty,
      (tables.map (tablePath settings.outputDir)).dedup.length = tables.length].TFAE := by
  tfae_have 1 → 2 := by
    intro distinct
    constructor
    · rw [List.nodup_map_iff_inj_on (List.Nodup.of_map _ distinct)]
      intro table member other otherMember same
      exact List.inj_on_of_nodup_map distinct member otherMember
        ((compiles.tablePath_eq_iff member otherMember).mp same)
    · intro table member
      obtain ⟨earlier, later, position⟩ := List.append_of_mem member
      apply compiles.readText_tablePath sound position
      intro other inLater same
      rw [position, List.map_append, List.map_cons, List.nodup_append] at distinct
      have apart := (List.nodup_cons.mp distinct.2.1).1
      exact apart (List.mem_map.mpr ⟨other, inLater, same⟩)
  tfae_have 2 → 3 := by
    intro own
    rw [List.Nodup.dedup own.1, List.length_map]
  tfae_have 3 → 1 := by
    intro count
    have distinct : (tables.map (tablePath settings.outputDir)).Nodup := by
      rw [← List.dedup_eq_self]
      apply (List.dedup_sublist _).eq_of_length
      rw [count, List.length_map]
    have named : tables.map (tablePath settings.outputDir) =
        (tables.map RouteTable.moduleId).map fun moduleId =>
          join settings.outputDir (moduleId ++ ".routes.json") := by
      rw [List.map_map]
      rfl
    rw [named] at distinct
    exact distinct.of_map _
  tfae_finish

end Compiles

/-! ## Runs of the command line -/

/-- The settings that `compile-all` runs with: those of the project, but for what the command line
gives. -/
def compileAllSettings (invocation : Invocation) (directory output : Option String)
    (workers : Option Nat) (disk : Disk) : Except Fault Settings :=
  (projectSettings disk (rootOf invocation disk)).map fun project =>
    let settings := project.resolve (rootOf invocation disk)
    { definitionsDir := directory.getD settings.definitionsDir
      outputDir := output.getD settings.outputDir
      apiPrefix := invocation.apiPrefix.getD settings.apiPrefix
      workers := workers.orElse fun _ => settings.workers
      logLevel := invocation.logLevel.getD settings.logLevel }

theorem leads_compileAll_iff {invocation : Invocation} {given output : Option String}
    {workers : Option Nat} (asked : invocation.command = .compileAll given output workers) :
    Leads (runInvocation invocation) before () after ↔
      ∃ settings, compileAllSettings invocation given output workers before.2 = .ok settings ∧
        Leads (runCompileAll settings) before () after := by
  unfold compileAllSettings
  rw [leads_runInvocation_iff, asked]
  unfold invocationSettings
  simp only [Outcome.map_eq_ok_iff]
  constructor
  · rintro ⟨_, ⟨project, found, rfl⟩, runs⟩
    exact ⟨_, ⟨project, found, rfl⟩, runs⟩
  · rintro ⟨_, ⟨project, found, rfl⟩, runs⟩
    exact ⟨_, ⟨project, found, rfl⟩, runs⟩

/-- `compile-all` succeeds exactly when nothing fails, and it prints nothing else then. -/
theorem run_eq_zero_iff {environment : Environment} {arguments : List String}
    {invocation : Invocation} {given output : Option String} {workers : Option Nat}
    {printed errors : String} (parsed : parse environment arguments = .ok invocation)
    (asked : invocation.command = .compileAll given output workers) :
    (run environment arguments : StateM Disk Outcome).run disk = (⟨0, printed, errors⟩, left) ↔
      ∃ settings tables, compileAllSettings invocation given output workers disk = .ok settings ∧
        Compiles settings disk tables left ∧ printed = compileAllText settings tables.length ∧
        errors = "" := by
  unfold run
  rw [parsed, finish_eq_zero_iff, leads_compileAll_iff asked]
  constructor
  · rintro ⟨settings, chosen, runs⟩
    obtain ⟨tables, compiles, same⟩ := compiles_of_leads runs
    rw [String.empty_append, Transcript.mk.injEq] at same
    exact ⟨settings, tables, chosen, compiles, same⟩
  · rintro ⟨settings, tables, chosen, compiles, rfl, rfl⟩
    refine ⟨settings, chosen, leads_of_compiles compiles ?_⟩
    rw [String.empty_append]

/-! ## Projects with two hubs -/

/-- A module whose table differs from those of other hubs in its id and theme only. -/
def hub (moduleId theme : String) : Definition :=
  { Definition.template moduleId "listings" "keywords" "audits" with theme := theme }

/-- The table of a hub whose module id is in normal form. -/
def hubTable (moduleId theme : String) : RouteTable :=
  ⟨moduleId, theme, "/api/" ++ moduleId, (hub moduleId theme).layout⟩

/-- A project with two definition files, the first of which is that of the Seller Hub. -/
def hubs (otherId : String) : Disk :=
  ⟨⟨[(["project"], .directory), (["project", "definitions"], .directory),
    (["project", "definitions", "first.json"],
      .file (.text (hub "Seller Hub" "blue").toJson.compact)),
    (["project", "definitions", "second.json"],
      .file (.text (hub otherId "red").toJson.compact))]⟩, ["project"]⟩

/-- The settings of a run in a project that has none of its own. -/
def plainSettings : Settings :=
  ⟨"/project/definitions", "/project/generated/routes", "/api", none, "info"⟩

theorem parse_compileAll :
    parse [] ["compile-all"] = .ok ⟨none, none, none, .compileAll none none none⟩ := rfl

theorem isSound_hubs (otherId : String) : (hubs otherId).tree.IsSound (hubs otherId).current := by
  constructor
  · intro pair member
    simp only [hubs, List.mem_cons, List.not_mem_nil, or_false] at member
    rcases member with rfl | rfl | rfl | rfl <;> rfl
  · rfl

theorem ofJsonText_hub :
    ∀ names ∈ [("Seller Hub", "blue"), ("seller-hub", "red"), ("price-watch", "red")],
      Definition.ofJsonText (hub names.1 names.2).toJson.compact = .ok (hub names.1 names.2) := by
  have free : ∀ names ∈ [("Seller Hub", "blue"), ("seller-hub", "red"), ("price-watch", "red")],
      (hub names.1 names.2).toJson.numberFree = true := by decide +kernel
  have reads : ∀ names ∈ [("Seller Hub", "blue"), ("seller-hub", "red"), ("price-watch", "red")],
      Definition.read .json (hub names.1 names.2).toJson.toDatum = .ok (hub names.1 names.2) := by
    decide +kernel
  exact fun names member => Json.decode_write (free names member) (reads names member) false

theorem compile_hub :
    ∀ names ∈ [("Seller Hub", "seller-hub", "blue"), ("seller-hub", "seller-hub", "red"),
        ("price-watch", "price-watch", "red")],
      plainSettings.compiler.compile (hub names.1 names.2.2) =
        .ok (hubTable names.2.1 names.2.2) := by
  decide +kernel

variable {otherId : String}

theorem settings_hubs : ∀ otherId ∈ ["seller-hub", "price-watch"],
    compileAllSettings ⟨none, none, none, .compileAll none none none⟩ none none none
      (hubs otherId) = .ok plainSettings := by
  unfold compileAllSettings projectSettings Settings.load
  simp only [Store.isFile, Tree.find, Tree.follow, String.contains_char_eq]
  decide +kernel

theorem follow_hubs : ∀ otherId ∈ ["seller-hub", "price-watch"],
    ∀ step ∈ [("/project/definitions", ["project", "definitions"]),
        ("/project/definitions/first.json", ["project", "definitions", "first.json"]),
        ("/project/definitions/second.json", ["project", "definitions", "second.json"])],
      (hubs otherId).tree.follow (hubs otherId).current step.1 = .ok step.2 := by
  unfold Tree.follow
  simp only [String.contains_char_eq]
  decide +kernel

theorem write_hubs : ∀ otherId ∈ ["seller-hub", "price-watch"],
    ((hubs otherId).tree.makeDirectories (hubs otherId).current plainSettings.outputDir >>=
      fun made => Tree.writeEach (hubs otherId).current plainSettings.outputDir made
        ([hubTable "seller-hub" "blue", hubTable otherId "red"].map tableFile)).isOk = true := by
  unfold Tree.writeEach Tree.makeDirectories Tree.writeText
  simp only [String.contains_char_eq]
  decide +kernel

theorem definitionPaths_hubs (member : otherId ∈ ["seller-hub", "price-watch"]) :
    definitionPaths (hubs otherId) plainSettings.definitionsDir =
      .ok ["/project/definitions/first.json", "/project/definitions/second.json"] := by
  have sorted : [["first.json"], ["second.json"]].mergeSort Tree.notAfter =
      [["first.json"], ["second.json"]] := List.mergeSort_of_pairwise (by decide)
  have found : (hubs otherId).tree.filesBelow (hubs otherId).current "/project/definitions" =
      .ok ([["first.json"], ["second.json"]].map fun names =>
        names.foldl join "/project/definitions") := by
    unfold Tree.filesBelow
    rw [follow_hubs otherId member _ List.mem_cons_self, ← sorted]
    rfl
  unfold definitionPaths plainSettings
  rw [found]
  rfl

theorem loaded_hubs (member : otherId ∈ ["seller-hub", "price-watch"]) :
    loaded (hubs otherId) "/project/definitions/first.json" = .ok (hub "Seller Hub" "blue") ∧
      loaded (hubs otherId) "/project/definitions/second.json" = .ok (hub otherId "red") := by
  have follows := follow_hubs otherId member
  have holdsFirst : (hubs otherId).tree.readText (hubs otherId).current
      "/project/definitions/first.json" = .ok (hub "Seller Hub" "blue").toJson.compact :=
    Tree.readText_eq_ok_iff.mpr ⟨_, follows _ (List.mem_cons_of_mem _ List.mem_cons_self), rfl⟩
  have holdsSecond : (hubs otherId).tree.readText (hubs otherId).current
      "/project/definitions/second.json" = .ok (hub otherId "red").toJson.compact :=
    Tree.readText_eq_ok_iff.mpr
      ⟨_, follows _ (List.mem_cons_of_mem _ (List.mem_cons_of_mem _ List.mem_cons_self)), rfl⟩
  have inJson : extension? "/project/definitions/first.json" = some "json" ∧
      extension? "/project/definitions/second.json" = some "json" := ⟨rfl, rfl⟩
  have other : (otherId, "red") ∈ ["seller-hub", "price-watch"].map fun name => (name, "red") :=
    List.mem_map_of_mem member
  rw [loaded_of_readText holdsFirst, loaded_of_readText holdsSecond]
  unfold Definition.ofFileText
  rw [inJson.1, inJson.2]
  change (Definition.ofJsonText _).mapError Fault.json = _ ∧
    (Definition.ofJsonText _).mapError Fault.json = _
  rw [ofJsonText_hub _ List.mem_cons_self, ofJsonText_hub _ (List.mem_cons_of_mem _ other)]
  exact ⟨rfl, rfl⟩

/-- A run in a project with two hubs succeeds. -/
theorem exists_compiles_hubs (member : otherId ∈ ["seller-hub", "price-watch"]) :
    ∃ left, Compiles plainSettings (hubs otherId)
      [hubTable "seller-hub" "blue", hubTable otherId "red"] left := by
  obtain ⟨tree, written⟩ := Outcome.exists_eq_ok (write_hubs otherId member)
  obtain ⟨made, makes, writes⟩ := Outcome.bind_eq_ok_iff.mp written
  have loads := loaded_hubs member
  have other : (otherId, otherId, "red") ∈
      ["seller-hub", "price-watch"].map fun name => (name, name, "red") :=
    List.mem_map_of_mem member
  refine ⟨_, ⟨_, [hub "Seller Hub" "blue", hub otherId "red"], definitionPaths_hubs member, nofun,
    ?_, ?_⟩, by decide, made, tree, makes, writes, rfl⟩
  · exact Outcome.mapM_eq_ok_iff.mpr (.cons loads.1 (.cons loads.2 .nil))
  · have compiledFirst := compile_hub _ List.mem_cons_self
    have compiledOther := compile_hub _ (List.mem_cons_of_mem _ other)
    exact Outcome.mapM_eq_ok_iff.mpr (.cons compiledFirst (.cons compiledOther .nil))

/-! ## The tables of a run -/

/-- **Compiling everything.** A run of `compile-all` that succeeds has found, read and compiled
every definition file below the definitions directory, and prints their number. The file of a
table holds it unless a later table has the same module id. So the tables have files of their own
exactly when no two of them have the same module id, and exactly when as many files were written
as are announced. -/
theorem run_compileAll {environment : Environment} {arguments : List String}
    {invocation : Invocation} {given output : Option String} {workers : Option Nat} {disk : Disk}
    (parsed : parse environment arguments = .ok invocation)
    (asked : invocation.command = .compileAll given output workers)
    (sound : disk.tree.IsSound disk.current)
    (succeeded : ((run environment arguments : StateM Disk Outcome).run disk).1.code = 0) :
    ∃ settings paths definitions tables left,
      compileAllSettings invocation given output workers disk = .ok settings ∧
      definitionPaths disk settings.definitionsDir = .ok paths ∧
      paths.mapM (loaded disk) = .ok definitions ∧
      definitions.mapM settings.compiler.compile = .ok tables ∧
      (run environment arguments : StateM Disk Outcome).run disk =
        (⟨0, compileAllText settings tables.length, ""⟩, left) ∧
      (∀ earlier table later, tables = earlier ++ table :: later →
        (∀ other ∈ later, other.moduleId ≠ table.moduleId) →
          left.tree.readText left.current (tablePath settings.outputDir table) =
            .ok table.toJson.pretty) ∧
      [(tables.map RouteTable.moduleId).Nodup,
        (tables.map (tablePath settings.outputDir)).Nodup ∧ ∀ table ∈ tables,
          left.tree.readText left.current (tablePath settings.outputDir table) =
            .ok table.toJson.pretty,
        (tables.map (tablePath settings.outputDir)).dedup.length = tables.length].TFAE := by
  rcases ran : (run environment arguments : StateM Disk Outcome).run disk with
    ⟨⟨code, printed, errors⟩, left⟩
  rw [ran] at succeeded
  obtain rfl : code = 0 := succeeded
  obtain ⟨settings, tables, chosen, compiles, rfl, rfl⟩ := (run_eq_zero_iff parsed asked).mp ran
  obtain ⟨paths, definitions, found, _, read, compiled⟩ := compiles.sources
  refine ⟨settings, paths, definitions, tables, left, chosen, found, read, compiled, rfl, ?_, ?_⟩
  · intro earlier table later position last
    exact compiles.readText_tablePath sound position last
  · exact compiles.tfae sound

theorem run_compileAll_hubs : ∃ left,
    (run [] ["compile-all"] : StateM Disk Outcome).run (hubs "price-watch") =
        (⟨0, compileAllText plainSettings 2, ""⟩, left) ∧
      ∀ table ∈ [hubTable "seller-hub" "blue", hubTable "price-watch" "red"],
        left.tree.readText left.current (tablePath plainSettings.outputDir table) =
          .ok table.toJson.pretty := by
  have member : "price-watch" ∈ ["seller-hub", "price-watch"] := by decide
  have chosen := settings_hubs _ member
  obtain ⟨left, compiles⟩ := exists_compiles_hubs member
  have ran := (run_eq_zero_iff parse_compileAll rfl).mpr ⟨_, _, chosen, compiles, rfl, rfl⟩
  obtain ⟨settings, paths, definitions, tables, stands, chosenToo, found, read, compiled, ranToo, _,
    tfae⟩ := run_compileAll parse_compileAll rfl (isSound_hubs _) (by rw [ran])
  -- What the run read and wrote is what it reads and writes.
  obtain rfl := Except.ok.inj (chosen.symm.trans chosenToo)
  obtain ⟨_, _, foundHere, _, readHere, compiledHere⟩ := compiles.sources
  obtain rfl := Except.ok.inj (foundHere.symm.trans found)
  obtain rfl := Except.ok.inj (readHere.symm.trans read)
  obtain rfl := Except.ok.inj (compiledHere.symm.trans compiled)
  have distinct : (([hubTable "seller-hub" "blue", hubTable "price-watch" "red"]).map
      RouteTable.moduleId).Nodup := by decide
  have own := (tfae.out 0 1).mp distinct
  exact ⟨stands, ranToo, own.2⟩

theorem pretty_ne_of_theme_ne {blue red : RouteTable} (same : blue.moduleId = red.moduleId)
    (isBlue : blue.theme = "blue") (isRed : red.theme = "red") :
    blue.toJson.pretty ≠ red.toJson.pretty := by
  intro texts
  have written := String.ofList_injective texts
  unfold RouteTable.toJson at written
  rw [same, isBlue, isRed] at written
  simp [Json.write, Json.writeFields, Json.writeField, Json.quote, Json.escapeChar] at written

/-- Two definitions whose ids have one normal form: the run succeeds and announces two tables, but
both go to one file, which does not hold the first. -/
theorem compileAll_overwrites_hub : ∃ left,
    compileAllSettings ⟨none, none, none, .compileAll none none none⟩ none none none
        (hubs "seller-hub") = .ok plainSettings ∧
      definitionPaths (hubs "seller-hub") plainSettings.definitionsDir =
        .ok ["/project/definitions/first.json", "/project/definitions/second.json"] ∧
      loaded (hubs "seller-hub") "/project/definitions/first.json" =
        .ok (hub "Seller Hub" "blue") ∧
      plainSettings.compiler.compile (hub "Seller Hub" "blue") =
        .ok (hubTable "seller-hub" "blue") ∧
      (run [] ["compile-all"] : StateM Disk Outcome).run (hubs "seller-hub") =
        (⟨0, compileAllText plainSettings 2, ""⟩, left) ∧
      tablePath plainSettings.outputDir (hubTable "seller-hub" "blue") =
        tablePath plainSettings.outputDir (hubTable "seller-hub" "red") ∧
      left.tree.readText left.current
          (tablePath plainSettings.outputDir (hubTable "seller-hub" "blue")) ≠
        .ok (hubTable "seller-hub" "blue").toJson.pretty := by
  have member : "seller-hub" ∈ ["seller-hub", "price-watch"] := List.mem_cons_self
  have chosen := settings_hubs _ member
  obtain ⟨left, compiles⟩ := exists_compiles_hubs member
  have ran := (run_eq_zero_iff parse_compileAll rfl).mpr ⟨_, _, chosen, compiles, rfl, rfl⟩
  have shared : tablePath plainSettings.outputDir (hubTable "seller-hub" "blue") =
      tablePath plainSettings.outputDir (hubTable "seller-hub" "red") := rfl
  have position : [hubTable "seller-hub" "blue", hubTable "seller-hub" "red"] =
      [hubTable "seller-hub" "blue"] ++ hubTable "seller-hub" "red" :: [] := rfl
  have holds := compiles.readText_tablePath (isSound_hubs _) position nofun
  have compiled := compile_hub ("Seller Hub", "seller-hub", "blue") List.mem_cons_self
  refine ⟨left, chosen, definitionPaths_hubs member, (loaded_hubs member).1, compiled, ran, shared,
    ?_⟩
  have differ : (hubTable "seller-hub" "blue").toJson.pretty ≠
      (hubTable "seller-hub" "red").toJson.pretty := pretty_ne_of_theme_ne rfl rfl rfl
  rw [shared, holds]
  intro texts
  exact differ (Except.ok.inj texts).symm

end CommandLine

end ModuleRoutes
