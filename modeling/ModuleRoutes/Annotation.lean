import ModuleRoutes.Slot
import ModuleRoutes.Text.Kebab

/-!
# Handler annotations

A handler function is annotated with the key it is bound to. The key is checked where the function
is declared, more strictly than when keys are read: every segment has to be in kebab case already.
The function has to be asynchronous, to take exactly one argument and not to be generic.
-/

namespace ModuleRoutes

/-- The kinds of sections that a key in an annotation may name. -/
def Annotation.knownKinds : List String :=
  ["dashboard", "resource", "analytics", "settings", "utilities"]

/-- Why a key cannot stand in an annotation. -/
inductive AnnotationFault where
  | emptySegment (key : String)
  | notKebab (key part expected : String)
  | segmentCount (key : String)
  | unknownKind (name : String)
  | resourceMissing (key : String)
  | resourceMisplaced (key kind : String)
  | notAsync
  | argumentCount
  | generic
deriving DecidableEq, Repr

def AnnotationFault.message : AnnotationFault → String
  | .emptySegment key => "handler key `" ++ key ++ "` has an empty segment"
  | .notKebab key part expected =>
    "segment `" ++ part ++ "` of handler key `" ++ key ++ "` is not kebab case (expected `"
      ++ expected ++ "`)"
  | .segmentCount key =>
    "handler key `" ++ key ++ "` must be `module/kind/action` or `module/resource/<noun>/action`"
  | .unknownKind name =>
    "unknown section kind `" ++ name ++ "`, expected one of "
      ++ Text.joined ", " Annotation.knownKinds
  | .resourceMissing key => "resource handler key `" ++ key ++ "` needs a resource segment"
  | .resourceMisplaced key kind =>
    "only resource handler keys carry a resource segment, `" ++ key ++ "` is `" ++ kind ++ "`"
  | .notAsync => "#[handler] functions must be async"
  | .argumentCount => "#[handler] functions take exactly one `serde_json::Value` argument"
  | .generic => "#[handler] functions cannot be generic"

/-- The declaration of an annotated function. -/
structure Declaration where
  name : String
  isAsync : Bool
  arguments : Nat
  isGeneric : Bool
deriving DecidableEq, Repr

namespace Annotation

def kebabText (text : String) : String := String.ofList (Text.kebab text.toList)

def checkSegment (key part : String) : Except AnnotationFault Unit :=
  if part.isEmpty then .error (.emptySegment key)
  else if kebabText part = part then .ok ()
  else .error (.notKebab key part (kebabText part))

/-- Checks that the kind of a key is known and fits the number of its segments. -/
def checkKind (key kind : String) (segments : Nat) : Except AnnotationFault Unit :=
  if !knownKinds.contains kind then .error (.unknownKind kind)
  else
    match kind, segments with
    | "resource", 3 => .error (.resourceMissing key)
    | other, 4 => if other ≠ "resource" then .error (.resourceMisplaced key other) else .ok ()
    | _, _ => .ok ()

def checkKey (key : String) : Except AnnotationFault Unit := do
  let segments := Text.pieces '/' key
  segments.forM (checkSegment key)
  match segments with
  | [_, kind, _] | [_, kind, _, _] => checkKind key kind segments.length
  | _ => throw (.segmentCount key)

/-- A name without the mark that lets a reserved word stand as a name. -/
def plainName (name : String) : String :=
  match Text.afterStart? ['r', '#'] name.toList with
  | some rest => String.ofList rest
  | none => name

/-- The name of the wrapper that an annotation puts around a function. -/
def wrapper (key : String) (declaration : Declaration) : Except AnnotationFault String := do
  checkKey key
  if !declaration.isAsync then throw .notAsync
  if declaration.arguments ≠ 1 then throw .argumentCount
  if declaration.isGeneric then throw .generic
  pure ("__route_forge_handler_" ++ plainName declaration.name)

end Annotation

end ModuleRoutes
