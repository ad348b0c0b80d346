import ModuleRoutes.Batch

/-!
# Every schedule of a batch

The tasks of a batch take permits, compile and finish in any order. Whatever the order, no more
tasks hold a permit than the pool has permits, and the results are those of compiling one definition
after another (`ModuleRoutes.Batch.Pool.delivers_of_run`). What one event can do is said once
(`ModuleRoutes.Batch.Pool.moves_of_step`); everything else follows from it.
-/

namespace ModuleRoutes

namespace Batch

namespace Stage

/-- The permits that a task holds at a stage. -/
def permits : Stage → Nat
  | .waiting | .finished _ => 0
  | .admitted | .compiling | .compiled _ => 1

/-- The events that a task has before it at a stage. -/
def left : Stage → Nat
  | .waiting => 4
  | .admitted => 3
  | .compiling => 2
  | .compiled _ => 1
  | .finished _ => 0

/-- The result of a task, once its definition is compiled. -/
def result? : Stage → Option (Except Fault RouteTable)
  | .waiting | .admitted | .compiling => none
  | .compiled result | .finished result => some result

/-- What the tasks weigh together. -/
def total (weight : Stage → Nat) : List Stage → Nat
  | [] => 0
  | stage :: stages => weight stage + total weight stages

variable {weight : Stage → Nat} {stages : List Stage} {before after : Stage} {task : Nat}

theorem total_append (later : List Stage) :
    total weight (stages ++ later) = total weight stages + total weight later := by
  induction stages with
  | nil => exact (Nat.zero_add _).symm
  | cons stage stages ih => rw [List.cons_append, total, total, ih, Nat.add_assoc]

/-- A task that moves on exchanges the weight of its stage. -/
theorem total_set (weight : Stage → Nat) (after : Stage) (held : stages[task]? = some before) :
    total weight (stages.set task after) + weight before = total weight stages + weight after := by
  induction stages generalizing task with
  | nil => cases held
  | cons stage stages ih =>
      cases task with
      | zero =>
          cases held
          simp only [List.set_cons_zero, total]
          omega
      | succ task =>
          have moved := ih held
          simp only [List.set_cons_succ, total]
          omega

theorem exists_of_total_pos (positive : 0 < total weight stages) :
    ∃ (task : Nat) (stage : Stage), stages[task]? = some stage ∧ 0 < weight stage := by
  induction stages with
  | nil => exact absurd positive (Nat.lt_irrefl 0)
  | cons stage stages ih =>
      by_cases heavy : 0 < weight stage
      · exact ⟨0, stage, rfl, heavy⟩
      · rw [total, Nat.eq_zero_of_not_pos heavy, Nat.zero_add] at positive
        obtain ⟨task, later, held, positive⟩ := ih positive
        exact ⟨task + 1, later, held, positive⟩

end Stage

namespace Pool

/-- The permits that the tasks hold. -/
def held (pool : Pool) : Nat := Stage.total Stage.permits pool.tasks

/-- The events that a batch has before it: a task takes one event to spawn, four to finish and one
to join. -/
def left (definitions : List Definition) (pool : Pool) : Nat :=
  5 * (definitions.length - pool.tasks.length) + Stage.total Stage.left pool.tasks +
    (definitions.length - pool.joined.length)

variable {compiler : Compiler} {definitions : List Definition} {pool next : Pool} {event : Event}

/-! ## One event -/

/-- What one event does: it spawns a task, it moves one task a stage on, or it joins the next one.
A task that moves takes its permit from the free ones or gives it back to them, and its result is
that of its own definition. -/
inductive Moves (compiler : Compiler) (definitions : List Definition) (pool : Pool) :
    Pool → Prop where
  | spawned (room : pool.tasks.length < definitions.length) :
      Moves compiler definitions pool { pool with tasks := pool.tasks ++ [.waiting] }
  | advanced {task free : Nat} {before after : Stage} (atBefore : pool.tasks[task]? = some before)
      (permits : free + after.permits = pool.free + before.permits)
      (nearer : after.left + 1 = before.left)
      (faithful : ∀ result, after.result? = some result →
        before.result? = some result ∨ definitions[task]?.map compiler.compile = some result) :
      Moves compiler definitions pool { pool.advance task after with free := free }
  | joined {result : Except Fault RouteTable} (all : pool.tasks.length = definitions.length)
      (finished : pool.tasks[pool.joined.length]? = some (.finished result)) :
      Moves compiler definitions pool { pool with joined := pool.joined ++ [result] }

theorem moves_of_step (steps : pool.step compiler definitions event = some next) :
    pool.Moves compiler definitions next := by
  cases event with
  | spawn =>
      simp only [step] at steps
      split at steps
      · next room =>
        cases steps
        exact .spawned room
      · cases steps
  | acquire task =>
      simp only [step] at steps
      split at steps
      · next free waits available =>
        cases steps
        exact .advanced waits (by rw [available]; rfl) rfl (by simp [Stage.result?])
      · cases steps
  | launch task =>
      simp only [step] at steps
      split at steps
      · next admitted =>
        cases steps
        exact .advanced admitted rfl rfl (by simp [Stage.result?])
      · cases steps
  | compile task =>
      simp only [step] at steps
      split at steps
      · next definition compiles defined =>
        cases steps
        refine .advanced compiles rfl rfl fun result returned => .inr ?_
        rw [defined]
        exact returned
      · cases steps
  | release task =>
      simp only [step] at steps
      split at steps
      · next result compiled =>
        cases steps
        exact .advanced compiled rfl rfl fun result returned => .inl returned
      · cases steps
  | join =>
      simp only [step] at steps
      split at steps
      · next all =>
        split at steps
        · next result finished =>
          cases steps
          exact .joined all finished
        · cases steps
      · cases steps

/-- A batch of some width under way: every permit is free or held, a task has the result of its own
definition, and the joined results are the first ones of a sequential compilation. -/
structure Sound (compiler : Compiler) (definitions : List Definition) (permits : Nat)
    (pool : Pool) : Prop where
  conserved : pool.free + pool.held = permits
  tasks : pool.tasks.length ≤ definitions.length
  results : ∀ (task : Nat) (stage : Stage) (result : Except Fault RouteTable),
    pool.tasks[task]? = some stage → stage.result? = some result →
    definitions[task]?.map compiler.compile = some result
  joined : pool.joined <+: definitions.map compiler.compile

variable {permits : Nat}

theorem sound_start (compiler : Compiler) (definitions : List Definition) (permits : Nat) :
    (start permits).Sound compiler definitions permits where
  conserved := rfl
  tasks := Nat.zero_le _
  results := by
    intro task stage result held
    cases held
  joined := List.nil_prefix

theorem sound_of_moves (sound : pool.Sound compiler definitions permits)
    (moves : pool.Moves compiler definitions next) : next.Sound compiler definitions permits := by
  cases moves with
  | spawned room =>
      refine ⟨?_, ?_, ?_, sound.joined⟩
      · rw [← sound.conserved, held, held, Stage.total_append]
        rfl
      · rw [List.length_append]
        exact room
      · intro task stage result held returned
        rw [List.getElem?_append] at held
        split at held
        · exact sound.results task stage result held returned
        · rw [List.getElem?_singleton] at held
          split at held
          · cases held
            cases returned
          · cases held
  | @advanced task free before after atBefore permits nearer faithful =>
      refine ⟨?_, ?_, ?_, sound.joined⟩
      · have exchanged := Stage.total_set Stage.permits after atBefore
        have conserved := sound.conserved
        simp only [held, advance] at conserved ⊢
        omega
      · rw [advance, List.length_set]
        exact sound.tasks
      · intro other stage result held returned
        rw [advance, List.getElem?_set] at held
        split at held
        · next same =>
          subst same
          split at held
          · cases held
            exact (faithful result returned).elim (sound.results task before result atBefore) id
          · cases held
        · exact sound.results other stage result held returned
  | @joined result all finished =>
      refine ⟨sound.conserved, sound.tasks, sound.results, ?_⟩
      have compiled := sound.results _ _ result finished rfl
      obtain ⟨rest, split⟩ := sound.joined
      rw [← List.getElem?_map, ← split, List.getElem?_append_right (Nat.le_refl _),
        Nat.sub_self] at compiled
      cases rest with
      | nil => cases compiled
      | cons first rest =>
          cases compiled
          exact ⟨rest, by rw [← split, List.append_assoc, List.singleton_append]⟩

/-- Each event brings a batch nearer to its end. -/
theorem left_of_moves (moves : pool.Moves compiler definitions next) :
    next.left definitions + 1 = pool.left definitions := by
  cases moves with
  | spawned room =>
      simp only [left, Stage.total_append, Stage.total, Stage.left, List.length_append,
        List.length_singleton]
      omega
  | @advanced task free before after atBefore permits nearer faithful =>
      have exchanged := Stage.total_set Stage.left after atBefore
      simp only [left, advance, List.length_set]
      omega
  | @joined result all finished =>
      have inRange : pool.joined.length < pool.tasks.length :=
        (List.getElem?_eq_some_iff.mp finished).1
      simp only [left, List.length_append, List.length_singleton]
      omega

/-! ## No standstill -/

/-- A batch that has joined every task. -/
def Returned (definitions : List Definition) (pool : Pool) : Prop :=
  pool.joined.length = definitions.length

theorem exists_step_of_permits (sound : pool.Sound compiler definitions permits) {task : Nat}
    {stage : Stage} (atStage : pool.tasks[task]? = some stage) (holds : 0 < stage.permits) :
    ∃ event next, pool.step compiler definitions event = some next := by
  cases stage with
  | waiting => cases holds
  | finished result => cases holds
  | admitted => exact ⟨.launch task, _, by rw [step, atStage]⟩
  | compiling =>
      have inRange : task < definitions.length :=
        Nat.lt_of_lt_of_le (List.getElem?_eq_some_iff.mp atStage).1 sound.tasks
      exact ⟨.compile task, _, by rw [step, atStage, List.getElem?_eq_getElem inRange]⟩
  | compiled result => exact ⟨.release task, _, by rw [step, atStage]⟩

/-- While a task has not been joined something can happen: the task that is joined next has
finished, or holds a permit, or can take a free one, or waits for a task that holds one. -/
theorem exists_step (sound : pool.Sound compiler definitions permits) (wide : 0 < permits)
    (underway : ¬ pool.Returned definitions) :
    ∃ event next, pool.step compiler definitions event = some next := by
  by_cases room : pool.tasks.length < definitions.length
  · exact ⟨.spawn, _, by rw [step, if_pos room]⟩
  have all : pool.tasks.length = definitions.length :=
    Nat.le_antisymm sound.tasks (Nat.le_of_not_lt room)
  have joinedFew : pool.joined.length < pool.tasks.length := by
    have atMost := sound.joined.length_le
    rw [List.length_map] at atMost
    exact Nat.lt_of_le_of_ne (all ▸ atMost) (all ▸ underway)
  obtain ⟨stage, atNext⟩ : ∃ stage, pool.tasks[pool.joined.length]? = some stage :=
    ⟨_, List.getElem?_eq_getElem joinedFew⟩
  cases stage with
  | waiting =>
      cases available : pool.free with
      | succ free => exact ⟨.acquire _, _, by rw [step, atNext, available]⟩
      | zero =>
          have taken : 0 < pool.held := by
            have conserved := sound.conserved
            omega
          obtain ⟨holder, holding, atHolder, holds⟩ := Stage.exists_of_total_pos taken
          exact exists_step_of_permits sound atHolder holds
  | admitted => exact exists_step_of_permits sound atNext Nat.one_pos
  | compiling => exact exists_step_of_permits sound atNext Nat.one_pos
  | compiled result => exact exists_step_of_permits sound atNext Nat.one_pos
  | finished result => exact ⟨.join, _, by rw [step, if_pos all, atNext]⟩

/-! ## A whole schedule -/

theorem sound_of_run {schedule : List Event} (sound : pool.Sound compiler definitions permits)
    (ran : pool.run compiler definitions schedule = some next) :
    next.Sound compiler definitions permits ∧
      next.left definitions + schedule.length = pool.left definitions := by
  induction schedule generalizing pool with
  | nil =>
      cases ran
      exact ⟨sound, rfl⟩
  | cons event schedule ih =>
      obtain ⟨middle, first, rest⟩ := Option.bind_eq_some_iff.mp ran
      have moves := moves_of_step first
      obtain ⟨soundNext, spent⟩ := ih (sound_of_moves sound moves) rest
      have nearer := left_of_moves moves
      exact ⟨soundNext, by rw [List.length_cons]; omega⟩

theorem exists_run_returned (sound : pool.Sound compiler definitions permits) (wide : 0 < permits) :
    ∃ rest final, pool.run compiler definitions rest = some final ∧ final.Returned definitions := by
  induction remaining : pool.left definitions generalizing pool with
  | zero =>
      have atMost := sound.joined.length_le
      rw [List.length_map] at atMost
      refine ⟨[], pool, rfl, ?_⟩
      unfold left at remaining
      unfold Returned
      omega
  | succ remains ih =>
      by_cases returned : pool.Returned definitions
      · exact ⟨[], pool, rfl, returned⟩
      · obtain ⟨event, next, steps⟩ := exists_step sound wide returned
        have moves := moves_of_step steps
        have nearer := left_of_moves moves
        obtain ⟨rest, final, ran, returned⟩ := ih (sound_of_moves sound moves) (by omega)
        exact ⟨event :: rest, final, Option.bind_eq_some_iff.mpr ⟨next, steps, ran⟩, returned⟩

/-- A batch that a schedule has brought to a pool gives what a sequential compilation gives: its
permits bound the tasks that hold one, the results so far are the first ones, the schedule is short
and can be carried on until every task is joined, and then the results are all there, each in the
place of its definition. -/
structure Delivers (compiler : Compiler) (definitions : List Definition) (workers : Option Nat)
    (cores : Nat) (schedule : List Event) (pool : Pool) : Prop where
  held_le : pool.held ≤ width workers cores
  joined : pool.joined <+: definitions.map compiler.compile
  length_le : schedule.length ≤ 6 * definitions.length
  continues : ∃ rest final,
    pool.run compiler definitions rest = some final ∧ final.Returned definitions
  returned : pool.Returned definitions →
    results? compiler workers cores definitions = some pool.joined ∧
      ∀ index : Nat, pool.joined[index]? = definitions[index]?.map compiler.compile

theorem width_pos {workers : Option Nat} {cores : Nat} (core : 0 < cores) :
    0 < width workers cores := by
  unfold width
  split
  · split
    · assumption
    · exact core
  · exact core

/-- **A batch is a sequential compilation under every schedule.** In whatever order the tasks are
spawned, take permits, compile, give the permits back and are joined, no more of them hold a permit
than the batch is wide, none of them waits for ever, and the results are those of compiling each
definition, in the order of the definitions. -/
theorem delivers_of_run {workers : Option Nat} {cores : Nat} {schedule : List Event}
    (core : 0 < cores) (permitted : width workers cores ≤ permitLimit)
    (ran : (start (width workers cores)).run compiler definitions schedule = some pool) :
    pool.Delivers compiler definitions workers cores schedule := by
  obtain ⟨sound, spent⟩ := sound_of_run (sound_start compiler definitions _) ran
  have whole : (start (width workers cores)).left definitions = 6 * definitions.length := by
    simp only [left, start, Stage.total, List.length_nil]
    omega
  refine ⟨?_, sound.joined, ?_, exists_run_returned sound (width_pos core), fun returned => ?_⟩
  · rw [← sound.conserved]
    exact Nat.le_add_left _ _
  · omega
  · have complete : pool.joined = definitions.map compiler.compile :=
      sound.joined.eq_of_length (by rw [List.length_map]; exact returned)
    rw [results?, if_pos permitted, complete]
    exact ⟨rfl, fun index => List.getElem?_map⟩

/-- Three definitions, of which the second is refused. -/
def mixed : List Definition :=
  [.template "seo.optimizer" "listings" "keywords" "audits",
    .template "restock" "products" "re/orders" "suppliers",
    .template "reviews" "ratings" "replies" "summaries"]

/-- Two permits for three tasks: the second task is the first to take one, and the third one takes
it over and is done before the first. -/
def interleaved : List Event :=
  [.spawn, .spawn, .acquire 1, .launch 1, .spawn, .acquire 0, .compile 1, .launch 0, .release 1,
    .acquire 2, .launch 2, .compile 2, .release 2, .compile 0, .release 0, .join, .join, .join]

theorem delivers_interleaved : ∃ pool,
    (start (width (some 2) 1)).run Compiler.default mixed interleaved = some pool ∧
      pool.Delivers Compiler.default mixed (some 2) 1 interleaved := by
  have runs :
      ((start (width (some 2) 1)).run Compiler.default mixed interleaved).isSome = true := by
    decide +kernel
  obtain ⟨pool, ran⟩ := Option.isSome_iff_exists.mp runs
  exact ⟨pool, ran, delivers_of_run Nat.one_pos (by decide) ran⟩

end Pool

end Batch

end ModuleRoutes
