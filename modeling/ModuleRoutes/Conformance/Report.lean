import ModuleRoutes.Conformance.Hint
import ModuleRoutes.Json.Value
import ModuleRoutes.Route

/-!
# Conformance reports

A finding says what became of one expected or observed route: it was matched, it is missing, it is
extra, or it is served on another path. A report holds the matched findings in the order of the
table and all others in report order: by kind, action, class, resource and path.
-/

namespace ModuleRoutes

namespace Conformance

/-- The classes of findings, in the order in which a report lists them. -/
inductive DriftClass where
  | missing
  | extra
  | pathMismatch
  | matched
deriving DecidableEq, Repr

namespace DriftClass

def all : List DriftClass := [.missing, .extra, .pathMismatch, .matched]

def text : DriftClass → String
  | .missing => "missing"
  | .extra => "extra"
  | .pathMismatch => "pathMismatch"
  | .matched => "matched"

/-- The place of a class in report order. -/
def rank : DriftClass → Nat
  | .missing => 0
  | .extra => 1
  | .pathMismatch => 2
  | .matched => 3

end DriftClass

/-- What became of a route, with the paths that it is expected and observed on. -/
inductive Verdict where
  | matched (path : String)
  | missing (expected : String)
  | extra (observed : String)
  | pathMismatch (expected observed : String)
deriving DecidableEq, Repr

namespace Verdict

def driftClass : Verdict → DriftClass
  | .matched _ => .matched
  | .missing _ => .missing
  | .extra _ => .extra
  | .pathMismatch _ _ => .pathMismatch

/-- The path that the table expects, if the table has the route. -/
def expectedPath? : Verdict → Option String
  | .matched path => some path
  | .missing expected => some expected
  | .extra _ => none
  | .pathMismatch expected _ => some expected

/-- The path that was observed, if the route was observed. -/
def observedPath? : Verdict → Option String
  | .matched path => some path
  | .missing _ => none
  | .extra observed => some observed
  | .pathMismatch _ observed => some observed

/-- The path that a finding is sorted by: the expected one, or else the observed one. -/
def path : Verdict → String
  | .matched path => path
  | .missing expected => expected
  | .extra observed => observed
  | .pathMismatch expected _ => expected

/-- The hint on a diverging path. -/
def hint? : Verdict → Option Hint
  | .pathMismatch expected observed => some (Hint.classify expected observed)
  | _ => none

end Verdict

/-- What became of one route. -/
structure Finding where
  family : Family
  method : Method
  verdict : Verdict
deriving DecidableEq, Repr

namespace Finding

def driftClass (finding : Finding) : DriftClass := finding.verdict.driftClass

/-- Report order: kind, action, class, resource, path. -/
def order (left right : Finding) : Ordering :=
  (compare left.family.kind.rank right.family.kind.rank).then <|
    (compare left.family.action right.family.action).then <|
      (compare left.driftClass.rank right.driftClass.rank).then <|
        (compareOptional left.family.resource right.family.resource).then
          (compare left.verdict.path right.verdict.path)

/-- Whether a finding does not come after another one. -/
def notAfter (left right : Finding) : Bool := left.order right != .gt

/-- The paths of a finding in words. -/
def pathText (finding : Finding) : String :=
  match finding.verdict with
  | .pathMismatch expected observed =>
    if expected = observed then expected else expected ++ " (observed " ++ observed ++ ")"
  | verdict => verdict.path

/-- A finding in one line. -/
def text (finding : Finding) : String :=
  finding.driftClass.text ++ " " ++ finding.method.text ++ " " ++ finding.pathText ++ "  ["
    ++ finding.family.text ++ "]"
    ++ (match finding.verdict.hint? with
      | some hint => " " ++ hint.text
      | none => "")

def toJson (finding : Finding) : Json :=
  .obj ([("class", .str finding.driftClass.text), ("section", .str finding.family.kind.text)]
    ++ Json.optionalText "resource" finding.family.resource
    ++ [("action", .str finding.family.action), ("method", .str finding.method.text)]
    ++ Json.optionalText "expectedPath" finding.verdict.expectedPath?
    ++ Json.optionalText "observedPath" finding.verdict.observedPath?
    ++ Json.optionalText "hint" (finding.verdict.hint?.map Hint.text))

end Finding

/-- What became of every expected and every observed route of a module. -/
structure Report where
  moduleId : String
  matched : List Finding
  drift : List Finding
deriving DecidableEq, Repr

namespace Report

/-- Whether nothing drifts. -/
def isClean (report : Report) : Bool := report.drift.isEmpty

/-- The findings of a class, the matched ones before all others. -/
def ofClass (report : Report) (wanted : DriftClass) : List Finding :=
  (report.matched ++ report.drift).filter fun finding => finding.driftClass = wanted

def count (report : Report) (wanted : DriftClass) : Nat :=
  match wanted with
  | .matched => report.matched.length
  | other => (report.drift.filter fun finding => finding.driftClass = other).length

/-- The line that counts the findings. -/
def summary (report : Report) : String :=
  report.moduleId ++ ": " ++ toString (report.count .matched) ++ " matched, "
    ++ toString (report.count .missing) ++ " missing, " ++ toString (report.count .extra)
    ++ " extra, " ++ toString (report.count .pathMismatch) ++ " path mismatch"

/-- The lines of findings, with a heading wherever the kind changes. -/
def groupLines : Option Kind → List Finding → List String
  | _, [] => []
  | current, finding :: findings =>
    let line := "  " ++ finding.text
    let rest := groupLines (some finding.family.kind) findings
    if current = some finding.family.kind then line :: rest
    else ("[" ++ finding.family.kind.text ++ "]") :: line :: rest

/-- The lines of a report: the summary, and what drifts grouped by kind. -/
def lines (report : Report) : List String := report.summary :: groupLines none report.drift

/-- A report as text, each line ended. -/
def text (report : Report) : String := String.join (report.lines.map (· ++ "\n"))

def toJson (report : Report) : Json :=
  .obj [("moduleId", .str report.moduleId), ("matched", .arr (report.matched.map Finding.toJson)),
    ("drift", .arr (report.drift.map Finding.toJson))]

end Report

end Conformance

end ModuleRoutes
