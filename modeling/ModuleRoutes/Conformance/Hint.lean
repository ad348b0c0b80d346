import ModuleRoutes.Text.Segments

/-!
# Hints on diverging paths

When a route is served on another path than the canonical one, the hint says what kind of divergence
it most likely is. It looks at the segments of the two paths: which are literal, and where the first
parameter stands.
-/

namespace ModuleRoutes

namespace Conformance

/-- What kind of divergence two paths show. -/
inductive Hint where
  | idAfterAction
  | idMissing
  | idUnexpected
  | literalDetail
  | paramName
  | other
deriving DecidableEq, Repr

def Hint.text : Hint → String
  | .idAfterAction => "idAfterAction"
  | .idMissing => "idMissing"
  | .idUnexpected => "idUnexpected"
  | .literalDetail => "literalDetail"
  | .paramName => "paramName"
  | .other => "other"

def pathSegments (path : String) : List String := Text.segments '/' path

/-- Whether a segment is a parameter, in either spelling. -/
def isParameter (part : String) : Bool :=
  match part.toList with
  | ':' :: _ => true
  | '\x7b' :: rest => rest.getLast? = some '\x7d'
  | _ => false

/-- The segments that are no parameters. -/
def literals (parts : List String) : List String := parts.filter fun part => !isParameter part

/-- The kind of divergence between the expected and the observed path of a route. -/
def Hint.classify (expected observed : String) : Hint :=
  let expectedParts := pathSegments expected
  let observedParts := pathSegments observed
  if decide ("detail" ∈ expectedParts) ≠ decide ("detail" ∈ observedParts) then .literalDetail
  else
    match expectedParts.findIdx? isParameter, observedParts.findIdx? isParameter with
    | some expectedAt, some observedAt =>
      if literals expectedParts ≠ literals observedParts then .other
      else if expectedAt < observedAt then .idAfterAction
      else if observedAt = expectedAt then .paramName
      else .other
    | some _, none => .idMissing
    | none, some _ => .idUnexpected
    | none, none => .other

end Conformance

end ModuleRoutes
