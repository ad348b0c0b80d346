import ModuleRoutes.CommandLine.Run
import ModuleRoutes.Proofs.CommandLine.Session
import ModuleRoutes.Proofs.Files.Write
import ModuleRoutes.Proofs.Outcome

/-!
# Invocations

What an invocation reads before its command runs: the settings of its project, which its options
override. Reading leaves the disk as it is, so that an invocation is described by the settings that
the disk holds and by its command (`ModuleRoutes.CommandLine.leads_runInvocation_iff`).
-/

namespace ModuleRoutes

namespace CommandLine

open Files

variable {before after : Transcript × Disk} {disk : Disk} {invocation : Invocation}

/-! ## Reading -/

/-- The definition that loading a file of a disk gives. -/
def loaded (disk : Disk) (path : String) : Except Fault Definition :=
  ((Definition.load path : StateM Disk _).run disk).1

/-- The settings that loading those of a project on a disk gives. -/
def projectSettings (disk : Disk) (root : String) : Except Fault Settings :=
  ((Settings.load root : StateM Disk _).run disk).1

theorem asks_loadDefinition (path : String) :
    Asks (Definition.load path) (Definition.load path) := by
  unfold Definition.load
  apply (asks_readText path).bind
  intro outcome
  cases outcome with
  | ok text => exact Asks.pure _
  | error fault => exact Asks.pure _

theorem leads_loadDefinition_iff {path : String} {outcome : Except Fault Definition} :
    Leads (Definition.load path) before outcome after ↔
      outcome = loaded before.2 path ∧ after = before := (asks_loadDefinition path).leads_iff

theorem loaded_of_readText {path text : String}
    (read : disk.tree.readText disk.current path = .ok text) :
    loaded disk path = Definition.ofFileText path text := by
  unfold loaded Definition.load
  have found : (Store.readText path : StateM Disk _).run disk = (.ok text, disk) := by
    rw [← read]
    rfl
  rw [StateT.run_bind, found]
  rfl

theorem asks_loadSettings (root : String) : Asks (Settings.load root) (Settings.load root) := by
  unfold Settings.load
  apply (asks_isFile _).bind
  intro ours
  by_cases present : ours = true
  · rw [if_pos present, if_pos present]
    apply (asks_readText _).bind
    intro outcome
    cases outcome <;> exact Asks.pure _
  · rw [if_neg present, if_neg present]
    apply (asks_isFile _).bind
    intro manifest
    by_cases packaged : manifest = true
    · rw [if_pos packaged, if_pos packaged]
      apply (asks_readText _).bind
      intro outcome
      cases outcome <;> exact Asks.pure _
    · rw [if_neg packaged, if_neg packaged]
      exact Asks.pure _

theorem leads_loadSettings_iff {root : String} {outcome : Except Fault Settings} :
    Leads (Settings.load root) before outcome after ↔
      outcome = projectSettings before.2 root ∧ after = before := (asks_loadSettings root).leads_iff

/-! ## Settings -/

/-- The root of the project that an invocation runs in. -/
def rootOf (invocation : Invocation) (disk : Disk) : String :=
  invocation.root.getD ("/" ++ Text.joined "/" disk.current)

/-- The settings that the command of an invocation runs with: those of the project, but for what the
options give. -/
def invocationSettings (invocation : Invocation) (disk : Disk) : Except Fault Settings :=
  (projectSettings disk (rootOf invocation disk)).map fun project =>
    let settings := project.resolve (rootOf invocation disk)
    { settings with
      apiPrefix := invocation.apiPrefix.getD settings.apiPrefix
      logLevel := invocation.logLevel.getD settings.logLevel }

/-- Finding the root of the project prints nothing and changes nothing. -/
theorem run_root (next : String → Session (StateM Disk) Unit) :
    ((match invocation.root with
          | some root => pure root >>= next
          | none => Store.currentDirectory >>= next).run.run before.1).run before.2 =
      ((next (rootOf invocation before.2)).run.run before.1).run before.2 := by
  unfold rootOf
  cases invocation.root with
  | some given => rfl
  | none => rfl

theorem leads_root_iff {next : String → Session (StateM Disk) Unit} :
    Leads
        (match invocation.root with
          | some root => pure root >>= next
          | none => Store.currentDirectory >>= next) before () after ↔
      Leads (next (rootOf invocation before.2)) before () after := by
  unfold Leads
  rw [run_root]

/-- An option for the root names a path. -/
theorem rootAt_ne_empty {environment : Environment} {scan : Scan} {root : Option String}
    (given : rootAt environment scan = .ok root) : root ≠ some "" := by
  rcases Outcome.optional_mapM_eq_ok_iff.mp given with ⟨_, rfl⟩ | ⟨raw, value, _, checked, rfl⟩
  · exact nofun
  · unfold pathValue at checked
    split at checked
    · cases checked
    · next filled =>
      obtain rfl := Except.ok.inj checked
      simpa using filled

theorem root_ne_empty_of_parse {environment : Environment} {arguments : List String}
    (parsed : parse environment arguments = .ok invocation) : invocation.root ≠ some "" := by
  unfold parse at parsed
  simp only [Outcome.bind_eq_ok_iff] at parsed
  obtain ⟨⟨outer, rest⟩, _, name, _, parsed⟩ := parsed
  split at parsed
  · cases parsed
  · split at parsed
    · cases parsed
    · simp only [Outcome.bind_eq_ok_iff] at parsed
      obtain ⟨⟨inner, _⟩, _, command, _, innerRoot, atInner, outerRoot, atOuter, ends⟩ := parsed
      rw [Outcome.pure_eq_ok_iff.mp ends]
      dsimp only
      split
      · exact rootAt_ne_empty atInner
      · exact rootAt_ne_empty atOuter

theorem rootOf_ne_empty {environment : Environment} {arguments : List String}
    (parsed : parse environment arguments = .ok invocation) (disk : Disk) :
    rootOf invocation disk ≠ "" := by
  have named := root_ne_empty_of_parse parsed
  unfold rootOf
  cases given : invocation.root with
  | none => simp
  | some root =>
      rw [given] at named
      exact fun empty => named (congrArg some empty)

/-- Whatever the settings of a project say, its definitions directory has a path. -/
theorem definitionsDir_ne_empty {environment : Environment} {arguments : List String}
    {settings : Settings} (parsed : parse environment arguments = .ok invocation)
    (chosen : invocationSettings invocation disk = .ok settings) :
    settings.definitionsDir ≠ "" := by
  obtain ⟨project, _, rfl⟩ := Outcome.map_eq_ok_iff.mp chosen
  exact Tree.join_ne_empty (rootOf_ne_empty parsed disk) project.definitionsDir

/-- An invocation succeeds when its settings can be read and its command succeeds with them. -/
theorem leads_runInvocation_iff :
    Leads (runInvocation invocation) before () after ↔
      ∃ settings, invocationSettings invocation before.2 = .ok settings ∧
        Leads (runCommand settings invocation.command) before () after := by
  unfold runInvocation invocationSettings
  apply leads_root_iff.trans
  simp only [leads_bind_iff, leads_loadSettings_iff, leads_orFailWith_iff, Outcome.map_eq_ok_iff]
  constructor
  · rintro ⟨_, _, ⟨rfl, rfl⟩, project, _, ⟨found, rfl⟩, runs⟩
    exact ⟨_, ⟨project, found, rfl⟩, runs⟩
  · rintro ⟨_, ⟨project, found, rfl⟩, runs⟩
    exact ⟨_, _, ⟨rfl, rfl⟩, project, _, ⟨found, rfl⟩, runs⟩

/-- With settings that can be read, an invocation fails where its command does. -/
theorem stops_runInvocation {settings : Settings} {failure : Failure}
    (chosen : invocationSettings invocation before.2 = .ok settings)
    (stops : Stops (runCommand settings invocation.command) before failure after) :
    Stops (runInvocation invocation) before failure after := by
  obtain ⟨project, found, rfl⟩ := Outcome.map_eq_ok_iff.mp chosen
  unfold runInvocation Stops
  refine (run_root _).trans ?_
  refine (leads_loadSettings_iff.mpr ⟨rfl, rfl⟩).bind_stops ?_
  exact (leads_orFailWith_iff.mpr ⟨found, rfl⟩).bind_stops stops

end CommandLine

end ModuleRoutes
