import ModuleRoutes.Fault
import ModuleRoutes.Files.Store

/-!
# Sessions

A session runs a command on a store of files and keeps what it prints. It may end in a failure,
which is a message with its causes; what was printed before stays.
-/

namespace ModuleRoutes

namespace CommandLine

open Files

/-- What has been printed, as text for each stream. -/
structure Transcript where
  output : String
  errors : String
deriving DecidableEq, Repr

/-- How a command can fail: with a message and its causes from the outside in, or by an abort whose
words are not ours. -/
inductive Failure where
  | messages (first : String) (causes : List String)
  | abort
deriving DecidableEq, Repr

/-- A command under way on a store. -/
abbrev Session (m : Type → Type) := ExceptT Failure (StateT Transcript m)

variable {m : Type → Type} [Monad m]

/-- A step on the store. -/
def onStore {α : Type} (step : m α) : Session m α := ExceptT.lift (StateT.lift step)

instance [Store m] : Store (Session m) where
  currentDirectory := onStore Store.currentDirectory
  readText path := onStore (Store.readText path)
  isFile path := onStore (Store.isFile path)
  isPresent path := onStore (Store.isPresent path)
  filesBelow path := onStore (Store.filesBelow path)
  makeDirectories path := onStore (Store.makeDirectories path)
  writeText path text := onStore (Store.writeText path text)

def print (text : String) : Session m Unit :=
  ExceptT.lift (modify fun transcript => { transcript with output := transcript.output ++ text })

def printLine (text : String) : Session m Unit := print (text ++ "\n")

def printError (text : String) : Session m Unit :=
  ExceptT.lift
    (modify fun transcript => { transcript with errors := transcript.errors ++ text ++ "\n" })

def fail {α : Type} (message : String) : Session m α := throw (.messages message [])

/-- The value of a result; a fault fails with its own words. -/
def orFail {α : Type} : Except Fault α → Session m α
  | .ok value => pure value
  | .error fault =>
    match fault.chain with
    | [] => fail fault.message
    | first :: causes => throw (.messages first causes)

/-- The value of a result; a fault is the cause of a failure with a message. -/
def orFailWith {α : Type} (message : String) : Except Fault α → Session m α
  | .ok value => pure value
  | .error fault => throw (.messages message fault.chain)

/-- The value of a result; a fault of the file system is the cause of a failure with a message. -/
def orFailOnFile {α : Type} (message : String) : Except FileFault α → Session m α
  | .ok value => pure value
  | .error fault => throw (.messages message [fault.message])

/-- A cause with its lines indented, behind its number if there are several. -/
def causeLines (several : Bool) (index : Nat) (cause : String) : String :=
  let (first, next) :=
    if several then
      (String.ofList (List.replicate (5 - (decimalWidth index)) ' ') ++ toString index ++ ": ",
        "       ")
    else ("    ", "    ")
  match Text.pieces '\n' cause with
  | [] => first
  | line :: lines => first ++ line ++ String.join (lines.map fun line => "\n" ++ next ++ line)
where
  /-- The number of digits of a number. -/
  decimalWidth (n : Nat) : Nat := (toString n).length

/-- A failure as the last lines on the stream of errors. -/
def Failure.text : Failure → String
  | .abort => ""
  | .messages first [] => "Error: " ++ first ++ "\n"
  | .messages first causes =>
    "Error: " ++ first ++ "\n\nCaused by:\n"
      ++ String.join (causes.zipIdx.map fun (cause, index) =>
        causeLines (1 < causes.length) index cause ++ "\n")

def Failure.code : Failure → Nat
  | .abort => 101
  | .messages _ _ => 1

/-- What a finished command leaves: its exit code and what it printed. -/
structure Outcome where
  code : Nat
  output : String
  errors : String
deriving DecidableEq, Repr

def Session.finish (session : Session m Unit) : m Outcome := do
  let (result, transcript) ← session.run.run ⟨"", ""⟩
  match result with
  | .ok _ => pure ⟨0, transcript.output, transcript.errors⟩
  | .error failure =>
    pure ⟨failure.code, transcript.output, transcript.errors ++ failure.text⟩

end CommandLine

end ModuleRoutes
