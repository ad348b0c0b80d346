import ModuleRoutes.Text.Kebab
import ModuleRoutes.Text.Blank
import ModuleRoutes.Text.Printable
import ModuleRoutes.Text.Quoted
import ModuleRoutes.Text.Utf8
import ModuleRoutes.Number.Shortest
import ModuleRoutes.Json.Printer
import ModuleRoutes.Json.Reader
import ModuleRoutes.Name.Basic
import ModuleRoutes.Name.Plural
import ModuleRoutes.Name.Verb
import ModuleRoutes.Route
import ModuleRoutes.Compiler
import ModuleRoutes.Definition.Encoded
import ModuleRoutes.Route.Encoded
import ModuleRoutes.Batch
import ModuleRoutes.Annotation
import ModuleRoutes.Conformance.Check
import ModuleRoutes.Registration.Extract
import ModuleRoutes.Toml.Reader
import ModuleRoutes.Definition.TomlText
import ModuleRoutes.Http.Router
import ModuleRoutes.Definition.Load
import ModuleRoutes.Registration.Load
import ModuleRoutes.Settings
import ModuleRoutes.Main
import ModuleRoutes.Proofs.Outcome
import ModuleRoutes.Proofs.Refusal
import ModuleRoutes.Proofs.Text.Separated
import ModuleRoutes.Proofs.Name.Token
import ModuleRoutes.Proofs.Name.Plural
import ModuleRoutes.Proofs.Name.Spelling
import ModuleRoutes.Proofs.Text.Trimmed
import ModuleRoutes.Proofs.Section.Conventions
import ModuleRoutes.Proofs.Section.Endpoints
import ModuleRoutes.Proofs.Definition.Normalize
import ModuleRoutes.Proofs.Definition.Slots
import ModuleRoutes.Proofs.Definition.NormalForm
import ModuleRoutes.Proofs.Definition.Refusal
import ModuleRoutes.Proofs.Compiler.Acceptance
import ModuleRoutes.Proofs.Section.Paths
import ModuleRoutes.Proofs.Section.Faults
import ModuleRoutes.Proofs.Compiler.Layout
import ModuleRoutes.Proofs.Compiler.Reordering
import ModuleRoutes.Proofs.Compiler.Attribution
import ModuleRoutes.Proofs.Compiler.Collisions
import ModuleRoutes.Proofs.HandlerKey
import ModuleRoutes.Proofs.HandlerKey.Order
import ModuleRoutes.Proofs.Encoding.Fields
import ModuleRoutes.Proofs.Handler.Binding
import ModuleRoutes.Proofs.Handler.Emission
import ModuleRoutes.Proofs.Handler.Declared
import ModuleRoutes.Proofs.Handler.History
import ModuleRoutes.Proofs.OpenApi
import ModuleRoutes.Proofs.Compiler.HandlerKeys
import ModuleRoutes.Proofs.Annotation
import ModuleRoutes.Proofs.Conformance.Check
import ModuleRoutes.Proofs.Conformance.Hints
import ModuleRoutes.Proofs.Conformance.Account
import ModuleRoutes.Proofs.Conformance.Order
import ModuleRoutes.Proofs.Conformance.Shuffled
import ModuleRoutes.Proofs.Json.RoundTrip
import ModuleRoutes.Proofs.Route.Encoded
import ModuleRoutes.Proofs.Text.Search
import ModuleRoutes.Proofs.Registration.Blocks
import ModuleRoutes.Proofs.Registration.Keys
import ModuleRoutes.Proofs.Registration.Roots
import ModuleRoutes.Proofs.Registration.Line
import ModuleRoutes.Proofs.Registration.RoundTrip
import ModuleRoutes.Proofs.Conformance.StandIns
import ModuleRoutes.Proofs.Conformance.Aliases
import ModuleRoutes.Proofs.Http.Pattern
import ModuleRoutes.Proofs.Http.Router
import ModuleRoutes.Proofs.Http.Mounting
import ModuleRoutes.Proofs.Http.Build
import ModuleRoutes.Proofs.Http.Described
import ModuleRoutes.Proofs.Http.Matching
import ModuleRoutes.Proofs.Http.Target
import ModuleRoutes.Proofs.Http.Calls
import ModuleRoutes.Proofs.Http.Dispatch
import ModuleRoutes.Proofs.Http.Merged
import ModuleRoutes.Proofs.Number.Overflow
import ModuleRoutes.Proofs.Http.Numerals
import ModuleRoutes.Proofs.Http.QueryValues
import ModuleRoutes.Proofs.Files.Tree
import ModuleRoutes.Proofs.Files.Directories
import ModuleRoutes.Proofs.Files.Write
import ModuleRoutes.Proofs.Files.Create
import ModuleRoutes.Proofs.CommandLine.Session
import ModuleRoutes.Proofs.CommandLine.Invocation
import ModuleRoutes.Proofs.CommandLine.CompileAll
import ModuleRoutes.Proofs.CommandLine.New
import ModuleRoutes.Proofs.Batch
import ModuleRoutes.Proofs.Toml.Quoted
import ModuleRoutes.Proofs.Toml.Statements
import ModuleRoutes.Proofs.Toml.Tables
import ModuleRoutes.Proofs.Definition.Encoded
import ModuleRoutes.Proofs.Definition.TomlText
import ModuleRoutes.Proofs.Registration.Cuts
import ModuleRoutes.Proofs.Compiler.Template
import ModuleRoutes.Proofs.Registration.Spellings
import ModuleRoutes.Proofs.Registration.Stored
import ModuleRoutes.Proofs.Conformance.Listing
import ModuleRoutes.Proofs.Name.Style
