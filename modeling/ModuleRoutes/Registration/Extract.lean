import ModuleRoutes.Registration.Vocabulary
import ModuleRoutes.Text.Lines

/-!
# Routes of a router source

A source is read in one pass over its lines. A registration stays pending until the next one or the
end of the source, since a line in between may still label it. It then gives at most one route: its
method and path come from the registration, its key from its label, or from the path when no line
had a label.
-/

namespace ModuleRoutes

namespace Registration

/-- A registration whose route is not made yet, with its label if a line has named one. -/
structure Pending where
  method : Method
  path : List Char
  label : Option StubLabel
deriving DecidableEq, Repr

namespace Pending

/-- A registration after a line, which labels it if nothing has yet. -/
def readLabel (line : List Char) (pending : Pending) : Pending :=
  match pending.label with
  | some _ => pending
  | none => { pending with label := stubLabel? line }

/-- The route of a registration, none when nothing names its family. -/
def route? (words : Vocabulary) (pending : Pending) : Option Route :=
  let path := cleanPath pending.path
  let key? :=
    match pending.label with
    | some label => words.keyOfLabel? pending.method label
    | none => words.keyOfPath? pending.method path
  key?.map fun key => ⟨path, pending.method, key, none⟩

end Pending

/-- What a pass over the lines of a source holds: the routes so far, and the registration that waits
for a label. -/
structure Pass where
  routes : List Route
  pending : Option Pending
deriving DecidableEq, Repr

namespace Pass

def start : Pass := ⟨[], none⟩

/-- A pass with the route of its pending registration made. -/
def flush (words : Vocabulary) (pass : Pass) : Pass :=
  match pass.pending with
  | some done => ⟨pass.routes ++ (done.route? words).toList, none⟩
  | none => pass

/-- A pass that a line with a registration sets pending. -/
def register (words : Vocabulary) (pass : Pass) (line : List Char) : Pass :=
  match registered? line with
  | some (method, path) => { pass.flush words with pending := some ⟨method, path, none⟩ }
  | none => pass

/-- A pass after a line. The line of a registration may label it, too. -/
def readLine (words : Vocabulary) (pass : Pass) (line : List Char) : Pass :=
  let pass := pass.register words line
  { pass with pending := pass.pending.map (Pending.readLabel line) }

end Pass

/-- The routes that some lines of a source register. -/
def routesOf (definition : Definition) (lines : List (List Char)) : List Route :=
  let words := Vocabulary.ofDefinition definition
  ((lines.foldl (Pass.readLine words) Pass.start).flush words).routes

/-- The routes that a router source registers. -/
def extract (source : String) (definition : Definition) : List Route :=
  routesOf definition (Text.lines source)

end Registration

end ModuleRoutes
