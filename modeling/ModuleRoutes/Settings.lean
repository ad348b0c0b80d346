import ModuleRoutes.Compiler
import ModuleRoutes.Files.Store
import ModuleRoutes.Toml.Reader

/-!
# Settings of a project

The settings of a project stand in `forge.toml` at its root, or else in the metadata of the package
manifest there; what neither names has its default. Directories that are not absolute are taken from
the root.
-/

namespace ModuleRoutes

open Encoding Files

/-- The settings of a project. -/
structure Settings where
  definitionsDir : String
  outputDir : String
  apiPrefix : String
  workers : Option Nat
  logLevel : String
deriving DecidableEq, Repr

namespace Settings

/-- The settings where nothing is said. -/
def default : Settings :=
  ⟨"definitions", "generated/routes", Compiler.default.apiPrefix, none, "info"⟩

/-- The settings that have been read so far. -/
structure Draft where
  definitionsDir : Option String
  outputDir : Option String
  apiPrefix : Option String
  workers : Option (Option Nat)
  logLevel : Option String

def reader : RecordReader Draft Settings where
  title := "struct ForgeConfig"
  fields :=
    [⟨"definitions_dir", false⟩, ⟨"output_dir", false⟩, ⟨"api_prefix", false⟩, ⟨"workers", false⟩,
      ⟨"log_level", false⟩]
  start := ⟨none, none, none, none, none⟩
  put draft name datum :=
    match name with
    | "definitions_dir" => do
      let value ← datum.readOnce name draft.definitionsDir (Datum.readText "path string")
      pure { draft with definitionsDir := value }
    | "output_dir" => do
      let value ← datum.readOnce name draft.outputDir (Datum.readText "path string")
      pure { draft with outputDir := value }
    | "api_prefix" => do
      let value ← datum.readOnce name draft.apiPrefix (Datum.readText "a string")
      pure { draft with apiPrefix := value }
    | "workers" => do
      let value ← datum.readOnce name draft.workers (Datum.readOptional Datum.readNat)
      pure { draft with workers := value }
    | "log_level" => do
      let value ← datum.readOnce name draft.logLevel (Datum.readText "a string")
      pure { draft with logLevel := value }
    | _ => pure draft
  finish draft :=
    .ok
      { definitionsDir := draft.definitionsDir.getD default.definitionsDir
        outputDir := draft.outputDir.getD default.outputDir
        apiPrefix := draft.apiPrefix.getD default.apiPrefix
        workers := draft.workers.getD default.workers
        logLevel := draft.logLevel.getD default.logLevel }

def read (datum : Datum) : Decoded Settings := reader.read .toml datum

def ofTomlText (text : String) : Decoded Settings := Toml.decode read text

/-- The value of a field of a table. -/
def fieldOf? (name : String) : Datum → Option Datum
  | .record fields _ => fields.lookup (some name)
  | _ => none

/-- Reads settings from a value that was read as a whole before: a list must not be longer than the
settings are. -/
def readWhole (datum : Datum) : Decoded Settings := do
  let settings ← read datum
  match datum with
  | .list items _ =>
    if items.length ≤ reader.fields.length then pure settings
    else throw (.data (.invalidLength items.length "fewer elements in array"))
  | _ => pure settings

/-- The settings in the metadata of a package manifest, none when it has no such metadata. Its whole
numbers must all have 64 bits with sign. -/
def ofManifest (text : String) : Decoded (Option Settings) :=
  match Toml.readDocument? text with
  | none => .error .syntaxFault
  | some datum =>
    if !Toml.numbersFit datum then .error .syntaxFault
    else
      let metadata := do
        let package ← fieldOf? "package" datum
        let metadata ← fieldOf? "metadata" package
        fieldOf? "route_forge" metadata
      match metadata with
      | some found => (readWhole found).map some
      | none => .ok none

/-- The name of the settings file. -/
def fileName : String := "forge.toml"

/-- The name of the package manifest. -/
def manifestName : String := "Cargo.toml"

/-- Loads the settings of the project with a given root. -/
def load {m : Type → Type} [Monad m] [Store m] (root : String) : m (Except Fault Settings) := do
  let path := join root fileName
  if ← Store.isFile path then
    match ← Store.readText path with
    | .ok text => pure ((ofTomlText text).mapError Fault.toml)
    | .error fault => pure (.error (.file fault))
  else
    let manifest := join root manifestName
    if ← Store.isFile manifest then
      match ← Store.readText manifest with
      | .ok text =>
        pure (((ofManifest text).map fun found => found.getD default).mapError Fault.toml)
      | .error fault => pure (.error (.file fault))
    else pure (.ok default)

/-- Settings with their directories taken from a root. -/
def resolve (root : String) (settings : Settings) : Settings :=
  { settings with
    definitionsDir := join root settings.definitionsDir
    outputDir := join root settings.outputDir }

/-- The compiler that settings ask for. -/
def compiler (settings : Settings) : Compiler := Compiler.withPrefix settings.apiPrefix

end Settings

end ModuleRoutes
