import Mathlib.Logic.Basic
import ModuleRoutes.CommandLine.Session

/-!
# Runs of sessions

A session on a disk comes to a value or fails, prints on the way and leaves another disk. The laws
below take a run that comes to a value apart step by step, so that a command is described by what
each of its steps does; a run that fails has come to the step that does.
-/

namespace ModuleRoutes

namespace CommandLine

open Files

/-- A session comes to a value: started with what has been printed on a disk, it ends with what is
then printed and the disk that it leaves. -/
def Leads {α : Type} (session : Session (StateM Disk) α) (before : Transcript × Disk) (value : α)
    (after : Transcript × Disk) : Prop :=
  (session.run.run before.1).run before.2 = ((.ok value, after.1), after.2)

/-- A session fails: started with what has been printed on a disk, it ends with what is then printed
and the disk that it leaves. -/
def Stops {α : Type} (session : Session (StateM Disk) α) (before : Transcript × Disk)
    (failure : Failure) (after : Transcript × Disk) : Prop :=
  (session.run.run before.1).run before.2 = ((.error failure, after.1), after.2)

variable {α β : Type} {before after : Transcript × Disk} {value : α} {result : β}
  {failure : Failure}

theorem leads_pure_iff {given : α} :
    Leads (pure given) before value after ↔ value = given ∧ after = before := by
  obtain ⟨transcript, disk⟩ := before
  obtain ⟨later, left⟩ := after
  unfold Leads
  constructor
  · intro same
    cases same
    exact ⟨rfl, rfl⟩
  · rintro ⟨rfl, ⟨⟩⟩
    rfl

theorem run_bind (first : Session (StateM Disk) α) (second : α → Session (StateM Disk) β)
    (before : Transcript × Disk) : ((first >>= second).run.run before.1).run before.2 =
      match (first.run.run before.1).run before.2 with
      | ((.ok middle, later), left) => ((second middle).run.run later).run left
      | ((.error failure, later), left) => ((.error failure, later), left) := by
  rw [ExceptT.run_bind, StateT.run_bind, StateT.run_bind]
  rcases (first.run.run before.1).run before.2 with ⟨⟨outcome, later⟩, left⟩
  cases outcome with
  | ok middle => rfl
  | error failure => rfl

/-- A session of two steps comes to a value when the first does and the second does from there. -/
theorem leads_bind_iff {first : Session (StateM Disk) α} {second : α → Session (StateM Disk) β} :
    Leads (first >>= second) before result after ↔
      ∃ middle between, Leads first before middle between ∧
        Leads (second middle) between result after := by
  unfold Leads
  rw [run_bind]
  constructor
  · intro ends
    rcases ran : (first.run.run before.1).run before.2 with ⟨⟨outcome, later⟩, left⟩
    rw [ran] at ends
    cases outcome with
    | ok middle => exact ⟨middle, (later, left), rfl, ends⟩
    | error failure => cases ends
  · rintro ⟨middle, between, ran, ends⟩
    rw [ran]
    exact ends

/-- A session of two steps fails where its first step does. -/
theorem Stops.bind {first : Session (StateM Disk) α} (stops : Stops first before failure after)
    (second : α → Session (StateM Disk) β) : Stops (first >>= second) before failure after := by
  unfold Stops at *
  rw [run_bind, stops]

/-- Once its first step has come to a value, a session fails where the second does. -/
theorem Leads.bind_stops {first : Session (StateM Disk) α}
    {second : α → Session (StateM Disk) β} {between : Transcript × Disk}
    (leads : Leads first before value between)
    (stops : Stops (second value) between failure after) :
    Stops (first >>= second) before failure after := by
  unfold Leads at leads
  unfold Stops at *
  rw [run_bind, leads]
  exact stops

theorem stops_throw : Stops (throw failure : Session (StateM Disk) α) before failure before := rfl

theorem not_leads_throw {failure : Failure} :
    ¬Leads (throw failure : Session (StateM Disk) α) before value after := by
  intro leads
  cases leads

theorem not_leads_fail {message : String} :
    ¬Leads (fail message : Session (StateM Disk) α) before value after := not_leads_throw

theorem leads_print_iff {text : String} {result : Unit} :
    Leads (print text) before result after ↔
      after = ({ before.1 with output := before.1.output ++ text }, before.2) := by
  unfold Leads
  constructor
  · intro leads
    obtain ⟨transcript, disk⟩ := after
    cases leads
    rfl
  · rintro rfl
    rfl

theorem leads_printLine_iff {text : String} {result : Unit} :
    Leads (printLine text) before result after ↔
      after = ({ before.1 with output := before.1.output ++ (text ++ "\n") }, before.2) :=
  leads_print_iff

/-- A step on the store prints nothing. -/
theorem leads_onStore_iff {step : StateM Disk α} :
    Leads (onStore step) before value after ↔
      step.run before.2 = (value, after.2) ∧ after.1 = before.1 := by
  obtain ⟨transcript, disk⟩ := after
  have ran : ((onStore step : Session (StateM Disk) α).run.run before.1).run before.2 =
      ((.ok (step.run before.2).1, before.1), (step.run before.2).2) := rfl
  unfold Leads
  rw [ran]
  constructor
  · intro same
    cases same
    exact ⟨rfl, rfl⟩
  · rintro ⟨same, rfl⟩
    rw [same]

/-- A session that does what a step on the store does, where the step leaves every disk as it is. -/
structure Asks (session : Session (StateM Disk) α) (step : StateM Disk α) : Prop where
  same : session = onStore step
  keeps : ∀ disk, (step.run disk).2 = disk

theorem Asks.leads_iff {session : Session (StateM Disk) α} {step : StateM Disk α}
    (asks : Asks session step) :
    Leads session before value after ↔ value = (step.run before.2).1 ∧ after = before := by
  have kept := asks.keeps before.2
  rw [asks.same, leads_onStore_iff]
  constructor
  · intro ends
    obtain ⟨ran, printed⟩ := ends
    rw [ran] at kept ⊢
    exact ⟨rfl, Prod.ext printed kept⟩
  · rintro ⟨rfl, rfl⟩
    exact ⟨Prod.ext rfl kept, rfl⟩

theorem Asks.pure (given : α) : Asks (pure given) (pure given) := ⟨rfl, fun _ => rfl⟩

theorem Asks.bind {session : Session (StateM Disk) α} {step : StateM Disk α}
    {second : α → Session (StateM Disk) β} {next : α → StateM Disk β} (asks : Asks session step)
    (each : ∀ middle, Asks (second middle) (next middle)) :
    Asks (session >>= second) (step >>= next) := by
  constructor
  · have others : second = fun middle => onStore (next middle) :=
      funext fun middle => (each middle).same
    rw [asks.same, others]
    rfl
  · intro disk
    rw [StateT.run_bind]
    exact ((each _).keeps _).trans (asks.keeps disk)

theorem asks_readText (path : String) : Asks (Store.readText path) (Store.readText path) :=
  ⟨rfl, fun _ => rfl⟩

theorem asks_isFile (path : String) : Asks (Store.isFile path) (Store.isFile path) :=
  ⟨rfl, fun _ => rfl⟩

theorem asks_isPresent (path : String) : Asks (Store.isPresent path) (Store.isPresent path) :=
  ⟨rfl, fun _ => rfl⟩

theorem asks_filesBelow (path : String) : Asks (Store.filesBelow path) (Store.filesBelow path) :=
  ⟨rfl, fun _ => rfl⟩

/-- A change of the tree that succeeds. -/
theorem leads_change_iff {update : Tree → List String → Except FileFault Tree} :
    Leads (onStore (Disk.change update)) before (.ok ()) after ↔
      ∃ tree, update before.2.tree before.2.current = .ok tree ∧
        after = (before.1, { before.2 with tree := tree }) := by
  obtain ⟨transcript, disk⟩ := after
  rw [leads_onStore_iff]
  unfold StateT.run Disk.change
  cases update before.2.tree before.2.current with
  | ok tree =>
      constructor
      · rintro ⟨⟨⟩, rfl⟩
        exact ⟨tree, rfl, rfl⟩
      · rintro ⟨_, ⟨⟩, ⟨⟩⟩
        exact ⟨rfl, rfl⟩
  | error fault =>
      constructor
      · rintro ⟨⟨⟩, _⟩
      · rintro ⟨_, ⟨⟩, _⟩

theorem leads_orFailOnFile_iff {message : String} {outcome : Except FileFault α} :
    Leads (orFailOnFile message outcome) before value after ↔
      outcome = .ok value ∧ after = before := by
  cases outcome with
  | ok given =>
      rw [orFailOnFile, leads_pure_iff, Except.ok.injEq]
      exact and_congr_left' eq_comm
  | error fault => exact iff_of_false not_leads_throw nofun

theorem leads_orFailWith_iff {message : String} {outcome : Except Fault α} :
    Leads (orFailWith message outcome) before value after ↔
      outcome = .ok value ∧ after = before := by
  cases outcome with
  | ok given =>
      rw [orFailWith, leads_pure_iff, Except.ok.injEq]
      exact and_congr_left' eq_comm
  | error fault => exact iff_of_false not_leads_throw nofun

theorem leads_orFail_iff {outcome : Except Fault α} :
    Leads (orFail outcome) before value after ↔ outcome = .ok value ∧ after = before := by
  cases outcome with
  | ok given =>
      rw [orFail, leads_pure_iff, Except.ok.injEq]
      exact and_congr_left' eq_comm
  | error fault =>
      refine iff_of_false (fun leads => ?_) nofun
      unfold orFail at leads
      dsimp only at leads
      split at leads <;> exact not_leads_throw leads

/-- A fault in place of a value fails in its own words. -/
theorem exists_stops_orFail (fault : Fault) (before : Transcript × Disk) :
    ∃ failure, failure.code = 1 ∧
      Stops (orFail (.error fault) : Session (StateM Disk) α) before failure before := by
  unfold orFail
  dsimp only
  split
  · exact ⟨_, rfl, stops_throw⟩
  · exact ⟨_, rfl, stops_throw⟩

theorem finish_run (session : Session (StateM Disk) Unit) (disk : Disk) :
    session.finish.run disk =
      match (session.run.run ⟨"", ""⟩).run disk with
      | ((.ok _, transcript), left) => (⟨0, transcript.output, transcript.errors⟩, left)
      | ((.error failure, transcript), left) =>
        (⟨failure.code, transcript.output, transcript.errors ++ failure.text⟩, left) := by
  unfold Session.finish
  rw [StateT.run_bind]
  rcases (session.run.run ⟨"", ""⟩).run disk with ⟨⟨outcome, transcript⟩, left⟩
  cases outcome <;> rfl

/-- A failed session leaves its failure as the last words. -/
theorem Stops.finish {session : Session (StateM Disk) Unit} {disk left : Disk}
    {transcript : Transcript} (stops : Stops session (⟨"", ""⟩, disk) failure (transcript, left)) :
    session.finish.run disk =
      (⟨failure.code, transcript.output, transcript.errors ++ failure.text⟩, left) := by
  unfold Stops at stops
  rw [finish_run, stops]

/-- A finished command has exit code zero exactly when its session came to its end; what it
printed is then what the session printed. -/
theorem finish_eq_zero_iff {session : Session (StateM Disk) Unit} {disk left : Disk}
    {output errors : String} :
    session.finish.run disk = (⟨0, output, errors⟩, left) ↔
      Leads session (⟨"", ""⟩, disk) () (⟨output, errors⟩, left) := by
  unfold Leads
  rw [finish_run]
  rcases (session.run.run ⟨"", ""⟩).run disk with ⟨⟨outcome, transcript⟩, stands⟩
  cases outcome with
  | ok value =>
      constructor
      · intro same
        cases same
        rfl
      · intro same
        cases same
        rfl
  | error failure =>
      have failed : failure.code ≠ 0 := by cases failure <;> exact nofun
      constructor
      · intro same
        have zero := congrArg (fun result : Outcome × Disk => result.1.code) same
        exact absurd zero failed
      · intro same
        cases same

end CommandLine

end ModuleRoutes
