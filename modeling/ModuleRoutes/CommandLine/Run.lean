import ModuleRoutes.Batch
import ModuleRoutes.CommandLine.Address
import ModuleRoutes.CommandLine.Arguments
import ModuleRoutes.CommandLine.Session
import ModuleRoutes.Conformance.Check
import ModuleRoutes.Definition.Load
import ModuleRoutes.Http.Router
import ModuleRoutes.Registration.Load
import ModuleRoutes.Settings

/-!
# Running commands

Each command loads what it is given, prints its result and says where it failed. `compile-all` goes
on past definitions that fail and reports their number at the end; `new` changes nothing unless the
names it is given compile and the file is not there yet.
-/

namespace ModuleRoutes

namespace CommandLine

open Conformance Files

variable {m : Type → Type} [Monad m] [Store m]

def loadDefinition (path : String) : Session m Definition := do
  orFailWith ("Failed to load definition " ++ path) (← Definition.load path)

def compileFiles (compiler : Compiler) (paths : List String) : Session m (List RouteTable) :=
  paths.mapM fun path => do
    let definition ← loadDefinition path
    orFailWith ("Failed to compile " ++ path) (compiler.compile definition)

def runCompile (settings : Settings) (paths : List String) (json : Bool) : Session m Unit := do
  let tables ← compileFiles settings.compiler paths
  if json then printLine (Json.arr (tables.map RouteTable.toJson)).pretty
  else print (String.join (tables.map RouteTable.text))

/-- The definition files below a directory, in the order of their names. -/
def discover (directory : String) : Session m (List String) := do
  match ← Store.filesBelow directory with
  | .ok paths => pure (paths.filter Definition.isDefinitionPath)
  | .error fault =>
    throw (.messages ("Failed to read " ++ directory)
      ["IO error for operation on " ++ directory ++ ": " ++ fault.message, fault.message])

/-- Loads the definitions in some files; the files that fail are reported and counted. -/
def loadAll : List String → Session m (List Definition × Nat)
  | [] => pure ([], 0)
  | path :: paths => do
    match ← Definition.load path with
    | .ok definition =>
      let (definitions, failures) ← loadAll paths
      pure (definition :: definitions, failures)
    | .error fault =>
      printError ("❌ " ++ path ++ ": " ++ fault.message)
      let (definitions, failures) ← loadAll paths
      pure (definitions, failures + 1)

/-- The file that a table is stored in. -/
def tablePath (directory : String) (table : RouteTable) : String :=
  join directory (table.moduleId ++ ".routes.json")

/-- Stores the tables of a batch; the definitions that failed are reported. The answer counts the
tables that were written and the failures. -/
def storeAll (directory : String) : List (Except Fault RouteTable) → Session m (Nat × Nat)
  | [] => pure (0, 0)
  | .ok table :: results => do
    let path := tablePath directory table
    orFailOnFile ("Failed to write " ++ path) (← Store.writeText path table.toJson.pretty)
    let (written, failures) ← storeAll directory results
    pure (written + 1, failures)
  | .error fault :: results => do
    printError ("❌ " ++ fault.message)
    let (written, failures) ← storeAll directory results
    pure (written, failures + 1)

/-- Compiles every definition below the definitions directory and stores the tables. -/
def runCompileAll (settings : Settings) : Session m Unit := do
  printLine ("▶️  Compiling definitions in " ++ settings.definitionsDir ++ "...")
  let paths ← discover settings.definitionsDir
  if paths.isEmpty then fail ("No definitions found in " ++ settings.definitionsDir)
  let (definitions, unread) ← loadAll paths
  match Batch.results? settings.compiler settings.workers 1 definitions with
  | none => throw .abort
  | some results =>
    orFailOnFile ("Failed to create " ++ settings.outputDir)
      (← Store.makeDirectories settings.outputDir)
    let (written, failed) ← storeAll settings.outputDir results
    printLine ("✅ Wrote " ++ toString written ++ " route table(s) to " ++ settings.outputDir)
    if unread + failed ≠ 0 then
      fail (toString (unread + failed) ++ " definition(s) failed to compile")

/-- Checks the observed routes of a module against its definition. -/
def runCheck (settings : Settings) (path observedPath : String) (json : Bool) :
    Session m Unit := do
  let definition ← loadDefinition path
  let table ← orFail (settings.compiler.compile definition)
  let observed ← orFailWith ("Failed to load observed routes from " ++ observedPath)
    (← Registration.load observedPath definition)
  let report := check table observed
  if json then printLine report.toJson.pretty else print report.text
  if report.isClean then printLine ("✅ " ++ report.moduleId ++ " conforms.")
  else fail ("`" ++ report.moduleId ++ "` drifts from its canonical routes")

/-- Prints the routes of a module that is bound to placeholders. -/
def runEmit (settings : Settings) (path : String) : Session m Unit := do
  let definition ← loadDefinition path
  let table ← orFail (settings.compiler.compile definition)
  let emitted ← orFail (table.emit (Binding.stubsFor table))
  printLine (Json.arr (emitted.routes.map EmittedRoute.toJson)).pretty

def runOpenApi (settings : Settings) (paths : List String) (title version : String) :
    Session m Unit := do
  let tables ← compileFiles settings.compiler paths
  printLine (OpenApi.document tables title version).toJson.pretty

/-- Builds the router of some modules that are bound to placeholders, and says where it serves. -/
def runServe (settings : Settings) (paths : List String) (address : String) : Session m Unit := do
  let tables ← compileFiles settings.compiler paths
  let document := OpenApi.document tables defaultTitle programVersion
  let modules ← tables.mapM fun table => orFail (table.emit (Binding.stubsFor table))
  match Http.Router.build modules (some document) with
  | .error (.duplicateMount mount) => orFail (.error (.duplicateMount mount))
  | .error _ => throw .abort
  | .ok _ =>
    match checkAddress address with
    | .error fault => throw (.messages ("Failed to bind " ++ address) [fault.message])
    | .ok _ =>
      printLine ("▶️  Serving " ++ toString tables.length ++ " module(s) on http://" ++ address)

def runNew (settings : Settings) (moduleId primary secondaryA secondaryB : String) :
    Session m Unit := do
  let definition := Definition.template moduleId primary secondaryA secondaryB
  let table ← orFail (settings.compiler.compile definition)
  let path := join settings.definitionsDir (table.moduleId ++ ".toml")
  if ← Store.isPresent path then fail (path ++ " already exists")
  orFailOnFile ("Failed to create " ++ settings.definitionsDir)
    (← Store.makeDirectories settings.definitionsDir)
  orFailOnFile ("Failed to write " ++ path) (← Store.writeText path definition.tomlText)
  printLine ("✅ Created " ++ path ++ " (" ++ toString table.routes.length ++ " routes)")

/-- Runs a command with the settings of its project. -/
def runCommand (settings : Settings) : Command → Session m Unit
  | .compile definitions json => runCompile settings definitions json
  | .compileAll directory output workers =>
    runCompileAll
      { settings with
        definitionsDir := directory.getD settings.definitionsDir
        outputDir := output.getD settings.outputDir
        workers := workers.orElse fun _ => settings.workers }
  | .check definition observed json => runCheck settings definition observed json
  | .emit definition => runEmit settings definition
  | .openApi definitions title version => runOpenApi settings definitions title version
  | .serve definitions address => runServe settings definitions address
  | .new moduleId primary secondaryA secondaryB =>
    runNew settings moduleId primary secondaryA secondaryB

/-- Runs an invocation: loads the settings of its project, lets its options override them, and runs
its command. -/
def runInvocation (invocation : Invocation) : Session m Unit := do
  let root ←
    match invocation.root with
    | some root => pure root
    | none => Store.currentDirectory
  let loaded ← orFailWith ("Failed to load configuration from " ++ root) (← Settings.load root)
  let settings := loaded.resolve root
  runCommand
    { settings with
      apiPrefix := invocation.apiPrefix.getD settings.apiPrefix
      logLevel := invocation.logLevel.getD settings.logLevel }
    invocation.command

/-- The name of the program with its version. -/
def versionLine : String := "route_forge " ++ programVersion

/-- Runs a command line. -/
def run (environment : Environment) (arguments : List String) : m Outcome :=
  match parse environment arguments with
  | .ok invocation => (runInvocation invocation).finish
  | .error .usage => pure ⟨2, "", ""⟩
  | .error .help => pure ⟨0, "", ""⟩
  | .error .version => pure ⟨0, versionLine ++ "\n", ""⟩

end CommandLine

end ModuleRoutes
