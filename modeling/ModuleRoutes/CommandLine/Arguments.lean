import ModuleRoutes.Number.Power
import ModuleRoutes.Text.Digits
import ModuleRoutes.Text.Segments

/-!
# Command lines

A command line names a command with its options and files. Options that hold for every command may
stand before or behind its name; the one nearer to the end counts, and a variable of the environment
stands in where none is given. An option takes its value from behind an equals sign or from the next
argument, and may be given once at each place.
-/

namespace ModuleRoutes

namespace CommandLine

open Number Text

/-- What a command line asks for. -/
inductive Command where
  | compile (definitions : List String) (json : Bool)
  | compileAll (directory output : Option String) (workers : Option Nat)
  | check (definition observed : String) (json : Bool)
  | emit (definition : String)
  | openApi (definitions : List String) (title version : String)
  | serve (definitions : List String) (address : String)
  | new (moduleId primary secondaryA secondaryB : String)
deriving DecidableEq, Repr

/-- A command with the options that hold for every command. -/
structure Invocation where
  root : Option String
  apiPrefix : Option String
  logLevel : Option String
  command : Command
deriving DecidableEq, Repr

/-- Why a command line names no command to run. -/
inductive Refusal where
  | usage
  | help
  | version
deriving DecidableEq, Repr

/-- The variables of the environment, by name. -/
abbrev Environment := List (String × String)

/-! ## Scanning -/

/-- An option: its name, and whether it takes a value. -/
structure OptionSpec where
  name : String
  takesValue : Bool
deriving DecidableEq, Repr

/-- The options and other arguments that have been met. A flag has an empty value. -/
structure Scan where
  options : List (String × String)
  operands : List String
deriving DecidableEq, Repr

/-- What an argument is by its first characters. -/
inductive Shape where
  | separator
  | long (name : String) (value : Option String)
  | short (letters : String)
  | operand
deriving DecidableEq, Repr

/-- The name and the value of an option that are joined by an equals sign. -/
def splitAssignment : List Char → List Char × Option (List Char)
  | [] => ([], none)
  | c :: rest =>
    if c = '=' then ([], some rest)
    else
      let (name, value) := splitAssignment rest
      (c :: name, value)

def shapeOf (argument : String) : Shape :=
  match argument.toList with
  | ['-', '-'] => .separator
  | '-' :: '-' :: rest =>
    let (name, value) := splitAssignment rest
    .long (String.ofList name) (value.map String.ofList)
  | ['-'] => .operand
  | '-' :: letters => .short (String.ofList letters)
  | _ => .operand

namespace Scan

def start : Scan := ⟨[], []⟩

/-- The value of an option, if it was given. -/
def value? (scan : Scan) (name : String) : Option String := scan.options.lookup name

def has (scan : Scan) (name : String) : Bool := (scan.value? name).isSome

/-- A scan with one more option, which must not have been given before. -/
def addOption (scan : Scan) (name value : String) : Except Refusal Scan :=
  if scan.has name then .error .usage
  else .ok { scan with options := (name, value) :: scan.options }

def addOperand (scan : Scan) (operand : String) : Scan :=
  { scan with operands := scan.operands ++ [operand] }

end Scan

/-- Scans arguments. With `stopAtOperand` the scan ends at the first operand, and what follows it is
left; otherwise every argument is scanned. -/
def scanArguments (specs : List OptionSpec) (stopAtOperand : Bool) :
    Scan → List String → Except Refusal (Scan × List String)
  | scan, [] => .ok (scan, [])
  | scan, argument :: rest =>
    match shapeOf argument with
    | .separator =>
      if stopAtOperand then .error .usage else .ok (rest.foldl Scan.addOperand scan, [])
    | .operand =>
      if stopAtOperand then .ok (scan.addOperand argument, rest)
      else scanArguments specs stopAtOperand (scan.addOperand argument) rest
    | .short letters =>
      if letters = "h" then .error .help
      else if letters = "V" ∧ stopAtOperand then .error .version
      else .error .usage
    | .long "help" none => .error .help
    | .long name value =>
      match specs.find? fun spec => spec.name = name with
      | none =>
        if name = "version" ∧ value = none ∧ stopAtOperand then .error .version else .error .usage
      | some spec =>
        if spec.takesValue then
          match value with
          | some value =>
            match scan.addOption name value with
            | .ok next => scanArguments specs stopAtOperand next rest
            | .error refusal => .error refusal
          | none =>
            match rest with
            | value :: rest' =>
              if shapeOf value = .operand then
                match scan.addOption name value with
                | .ok next => scanArguments specs stopAtOperand next rest'
                | .error refusal => .error refusal
              else .error .usage
            | [] => .error .usage
        else if value.isSome then .error .usage
        else
          match scan.addOption name "" with
          | .ok next => scanArguments specs stopAtOperand next rest
          | .error refusal => .error refusal

/-! ## Values -/

/-- A path, which must not be empty. -/
def pathValue (value : String) : Except Refusal String :=
  if value.isEmpty then .error .usage else .ok value

/-- A natural number below `2 ^ 64`, perhaps behind a plus sign. -/
def numberValue (value : String) : Except Refusal Nat :=
  let digits := match value.toList with
    | '+' :: rest => rest
    | other => other
  if digits.isEmpty ∨ !digits.all Char.isDigit ∨ twoTo 64 ≤ numberOf digits then .error .usage
  else .ok (numberOf digits)

/-- The value of an option, or of the variable that stands in for it. -/
def valueOr (scan : Scan) (environment : Environment) (name fallback : String) : Option String :=
  (scan.value? name).orElse fun _ => environment.lookup fallback

/-- The single operand of a command. -/
def singleOperand (scan : Scan) : Except Refusal String :=
  match scan.operands with
  | [operand] => .ok operand
  | _ => .error .usage

/-- The files that a command names, at least one. -/
def fileOperands (scan : Scan) : Except Refusal (List String) :=
  if scan.operands.isEmpty then .error .usage else scan.operands.mapM pathValue

/-! ## Commands -/

/-- The options that hold for every command. -/
def globalOptions : List OptionSpec := [⟨"root", true⟩, ⟨"api-prefix", true⟩, ⟨"log-level", true⟩]

/-- The commands with their own options. -/
def commandOptions : List (String × List OptionSpec) :=
  [("compile", [⟨"json", false⟩]),
    ("compile-all", [⟨"dir", true⟩, ⟨"out", true⟩, ⟨"workers", true⟩]),
    ("check", [⟨"observed", true⟩, ⟨"json", false⟩]),
    ("emit", []),
    ("openapi", [⟨"title", true⟩, ⟨"api-version", true⟩]),
    ("serve", [⟨"addr", true⟩]),
    ("new", [⟨"primary", true⟩, ⟨"secondary-a", true⟩, ⟨"secondary-b", true⟩])]

/-- The title of a document where none is given. -/
def defaultTitle : String := "route_forge modules"

/-- The version of this program, and of a document where none is given. -/
def programVersion : String := "0.1.1"

/-- The version of the modules in a document where none is given. -/
def defaultApiVersion : String := "0.1.0"

/-- The command with a name and its scanned arguments. -/
def commandOf (environment : Environment) (name : String) (scan : Scan) :
    Except Refusal Command := do
  match name with
  | "compile" => pure (.compile (← fileOperands scan) (scan.has "json"))
  | "compile-all" =>
    if !scan.operands.isEmpty then throw .usage
    let value := valueOr scan environment
    let directory ← (value "dir" "ROUTE_FORGE_DEFINITIONS_DIR").mapM pathValue
    let output ← (value "out" "ROUTE_FORGE_OUTPUT_DIR").mapM pathValue
    let workers ← (value "workers" "ROUTE_FORGE_WORKERS").mapM numberValue
    pure (.compileAll directory output workers)
  | "check" =>
    let definition ← pathValue (← singleOperand scan)
    match scan.value? "observed" with
    | some observed => pure (.check definition (← pathValue observed) (scan.has "json"))
    | none => throw .usage
  | "emit" => pure (.emit (← pathValue (← singleOperand scan)))
  | "openapi" =>
    pure (.openApi (← fileOperands scan) ((scan.value? "title").getD defaultTitle)
      ((scan.value? "api-version").getD defaultApiVersion))
  | "serve" =>
    pure (.serve (← fileOperands scan)
      ((valueOr scan environment "addr" "ROUTE_FORGE_ADDR").getD "127.0.0.1:3000"))
  | "new" =>
    pure (.new (← singleOperand scan) ((scan.value? "primary").getD "items")
      ((scan.value? "secondary-a").getD "rules") ((scan.value? "secondary-b").getD "logs"))
  | _ => throw .usage

/-- The root that one place of a command line gives, checked. -/
def rootAt (environment : Environment) (scan : Scan) : Except Refusal (Option String) :=
  (valueOr scan environment "root" "ROUTE_FORGE_ROOT").mapM pathValue

/-- The arguments without the word that stands for the program itself. -/
def dropProgramWord : List String → List String
  | "forge" :: rest => rest
  | arguments => arguments

/-- What a call for help asks for: it may name one command. -/
def helpRefusal : List String → Refusal
  | [] => .help
  | [name] => if name = "help" ∨ (commandOptions.lookup name).isSome then .help else .usage
  | _ => .usage

def parse (environment : Environment) (arguments : List String) : Except Refusal Invocation := do
  let (outer, rest) ← scanArguments globalOptions true Scan.start (dropProgramWord arguments)
  let name ← singleOperand outer
  if name = "help" then throw (helpRefusal rest)
  match commandOptions.lookup name with
  | none => throw .usage
  | some specs =>
    let (inner, _) ← scanArguments (globalOptions ++ specs) false Scan.start rest
    let command ← commandOf environment name inner
    let innerRoot ← rootAt environment inner
    let outerRoot ← rootAt environment outer
    let choose (name fallback : String) :=
      ((inner.value? name).orElse fun _ => outer.value? name).orElse fun _ =>
        environment.lookup fallback
    pure
      { root := if inner.has "root" then innerRoot else outerRoot
        apiPrefix := choose "api-prefix" "ROUTE_FORGE_API_PREFIX"
        logLevel := choose "log-level" "ROUTE_FORGE_LOG_LEVEL"
        command := command }

/-- The variables of the environment that a command line is read with. -/
def variableNames : List String :=
  ["ROUTE_FORGE_ROOT", "ROUTE_FORGE_API_PREFIX", "ROUTE_FORGE_LOG_LEVEL",
    "ROUTE_FORGE_DEFINITIONS_DIR", "ROUTE_FORGE_OUTPUT_DIR", "ROUTE_FORGE_WORKERS",
    "ROUTE_FORGE_ADDR"]

end CommandLine

end ModuleRoutes
