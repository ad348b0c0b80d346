import ModuleRoutes.CommandLine.Run
import ModuleRoutes.Text.Utf8

/-!
# The program

Runs a command line on the real file system. Everything but reading, listing and writing files
happens in `CommandLine.run`.
-/

namespace ModuleRoutes

open Files

/-- The fault that an error of the file system stands for. -/
def FileFault.ofError : IO.Error → FileFault
  | .noFileOrDirectory _ _ _ => .notFound
  | .alreadyExists _ _ _ => .alreadyExists
  | .permissionDenied _ _ _ => .denied
  | .inappropriateType _ 20 _ => .notDirectory
  | .inappropriateType _ _ _ => .isDirectory
  | .resourceExhausted _ 36 _ => .nameTooLong
  | error => .other (toString error)

/-- Runs an action on files, its errors as faults. -/
def guarded {α : Type} (action : IO α) : IO (Except FileFault α) := do
  match ← action.toBaseIO with
  | .ok value => pure (.ok value)
  | .error error => pure (.error (FileFault.ofError error))

def readFileText (path : String) : IO (Except FileFault String) := do
  match ← guarded (IO.FS.readBinFile path) with
  | .error fault => pure (.error fault)
  | .ok bytes =>
    match Text.decodeUtf8? bytes.toList with
    | some text => pure (.ok (String.ofList text))
    | none => pure (.error .notText)

def leadsToDirectory (path : String) : IO Bool := do
  match ← (IO.FS.realPath path).toBaseIO with
  | .ok real => real.isDir
  | .error _ => pure false

def leadsAnywhere (path : String) : IO Bool := do
  match ← (IO.FS.realPath path).toBaseIO with
  | .ok real => real.pathExists
  | .error _ => pure false

/-- The files at and below a path, in the order of their names. -/
partial def listFiles (path : String) : IO (List String) := do
  let real ← IO.FS.realPath path
  if ← real.isDir then
    let names := (← real.readDir).toList.map fun entry => entry.fileName
    let sorted := names.mergeSort fun left right => compare left right != .gt
    let below ← sorted.mapM fun name => listFiles (join path name)
    pure below.flatten
  else
    let _ ← real.metadata
    pure [path]

instance : Store IO where
  currentDirectory := do pure (← IO.currentDir).toString
  readText := readFileText
  isFile path := do pure ((← leadsAnywhere path) && !(← leadsToDirectory path))
  isPresent := leadsAnywhere
  filesBelow path := guarded (listFiles path)
  makeDirectories path := guarded (IO.FS.createDirAll path)
  writeText path text := guarded (IO.FS.writeFile path text)

/-- Runs a command line of the process: prints what it prints, and gives its exit code. -/
def runProcess (arguments : List String) : IO UInt32 := do
  let environment ← CommandLine.variableNames.filterMapM fun name => do
    pure ((← IO.getEnv name).map fun value => (name, value))
  let outcome ← (CommandLine.run environment arguments : IO CommandLine.Outcome)
  IO.print outcome.output
  IO.eprint outcome.errors
  pure (UInt32.ofNat outcome.code)

end ModuleRoutes

/-- Runs the command line that the process was started with. -/
def main (arguments : List String) : IO UInt32 := ModuleRoutes.runProcess arguments
