import ModuleRoutes.Compiler
import ModuleRoutes.Number.Power

/-!
# Compiling many definitions

A batch compiles every definition on a pool that holds a fixed number of permits. Each definition
has a task of its own, which takes a permit before it compiles and gives it back afterwards. Tasks
take permits and finish in any order; the results stand in the order of the definitions, and a
failing definition leaves the others alone.
-/

namespace ModuleRoutes

namespace Batch

/-- The greatest number of permits that a pool can hold. -/
def permitLimit : Nat := Number.twoTo 61 - 1

/-- The number of permits of a batch: the number asked for, unless it is zero or absent, when there
is one for each core. -/
def width (workers : Option Nat) (cores : Nat) : Nat :=
  match workers with
  | some count => if 0 < count then count else cores
  | none => cores

/-- The results of a batch, in the order of its definitions. A batch that asks for more permits than
a pool can hold has none. -/
def results? (compiler : Compiler) (workers : Option Nat) (cores : Nat)
    (definitions : List Definition) : Option (List (Except Fault RouteTable)) :=
  if width workers cores ≤ permitLimit then some (definitions.map compiler.compile) else none

/-- How far a task has come: it waits for a permit, holds one before, while and after its definition
is compiled, or has given it back and left its result. -/
inductive Stage where
  | waiting
  | admitted
  | compiling
  | compiled (result : Except Fault RouteTable)
  | finished (result : Except Fault RouteTable)

/-- What may happen next in a batch. Tasks are spawned and joined in the order of the definitions;
everything else happens to one task, in any order of the tasks. -/
inductive Event where
  | spawn
  | acquire (task : Nat)
  | launch (task : Nat)
  | compile (task : Nat)
  | release (task : Nat)
  | join
deriving DecidableEq, Repr

/-- A batch under way: the permits that no task holds, the tasks spawned so far, and the results of
the tasks that have been joined. -/
structure Pool where
  free : Nat
  tasks : List Stage
  joined : List (Except Fault RouteTable)

namespace Pool

/-- The batch before anything has happened. -/
def start (width : Nat) : Pool := ⟨width, [], []⟩

/-- The pool with a task at another stage. -/
def advance (pool : Pool) (task : Nat) (stage : Stage) : Pool :=
  { pool with tasks := pool.tasks.set task stage }

/-- The pool after an event, none when the event cannot happen: a permit is taken only while one is
free, and a task is joined only once all are spawned and it has finished. -/
def step (compiler : Compiler) (definitions : List Definition) (pool : Pool) : Event → Option Pool
  | .spawn =>
    if pool.tasks.length < definitions.length then
      some { pool with tasks := pool.tasks ++ [.waiting] }
    else none
  | .acquire task =>
    match pool.tasks[task]?, pool.free with
    | some .waiting, free + 1 => some { pool.advance task .admitted with free := free }
    | _, _ => none
  | .launch task =>
    match pool.tasks[task]? with
    | some .admitted => some (pool.advance task .compiling)
    | _ => none
  | .compile task =>
    match pool.tasks[task]?, definitions[task]? with
    | some .compiling, some definition =>
      some (pool.advance task (.compiled (compiler.compile definition)))
    | _, _ => none
  | .release task =>
    match pool.tasks[task]? with
    | some (.compiled result) =>
      some { pool.advance task (.finished result) with free := pool.free + 1 }
    | _ => none
  | .join =>
    if pool.tasks.length = definitions.length then
      match pool.tasks[pool.joined.length]? with
      | some (.finished result) => some { pool with joined := pool.joined ++ [result] }
      | _ => none
    else none

/-- The pool after a sequence of events. -/
def run (compiler : Compiler) (definitions : List Definition) (pool : Pool)
    (schedule : List Event) : Option Pool :=
  schedule.foldlM (fun pool event => pool.step compiler definitions event) pool

end Pool

end Batch

end ModuleRoutes
