import ModuleRoutes.Slot
import ModuleRoutes.Text.Segments

/-!
# Handler keys

A handler key names the handler of a route across builds: the module, the kind of section, the
resource of resource sections, and the action. Its text joins these by slashes. A family is a key
without its module, which two modules of one convention share.
-/

namespace ModuleRoutes

/-- The stable name of the handler of a route. -/
structure HandlerKey where
  moduleId : String
  kind : Kind
  resource : Option String
  action : String
deriving DecidableEq, Repr, Inhabited

/-- A handler key without its module. -/
structure Family where
  kind : Kind
  resource : Option String
  action : String
deriving DecidableEq, Repr

/-- Why a text is no handler key. -/
inductive KeyDefect where
  | emptySegment
  | unknownKind (name : String)
  | resourceMissing
  | resourceMisplaced
  | segmentCount
  | registeredTwice
deriving DecidableEq, Repr

/-- A text that is no handler key, and why. -/
structure InvalidKey where
  key : String
  defect : KeyDefect
deriving DecidableEq, Repr

namespace InvalidKey

def reason (fault : InvalidKey) : String :=
  match fault.defect with
  | .emptySegment => "empty segment"
  | .unknownKind name => Kind.unknownText name
  | .resourceMissing => "resource keys need a resource segment"
  | .resourceMisplaced => "only resource keys carry a resource segment"
  | .segmentCount => "expected module/kind/action or module/resource/name/action"
  | .registeredTwice => "registered more than once"

def message (fault : InvalidKey) : String :=
  "invalid handler key `" ++ fault.key ++ "`: " ++ fault.reason

end InvalidKey

/-- The order of texts that may be absent: absence comes first. -/
def compareOptional : Option String → Option String → Ordering
  | none, none => .eq
  | none, some _ => .lt
  | some _, none => .gt
  | some left, some right => compare left right

/-- A list without the members that repeat the one before. -/
def dropRepeats {α : Type} [DecidableEq α] : List α → List α
  | [] => []
  | [item] => [item]
  | item :: next :: items =>
    if item = next then dropRepeats (next :: items) else item :: dropRepeats (next :: items)

namespace Family

def text (family : Family) : String :=
  match family.resource with
  | some resource => family.kind.text ++ "/" ++ resource ++ "/" ++ family.action
  | none => family.kind.text ++ "/" ++ family.action

/-- Families are ordered by kind, resource and action. -/
def order (left right : Family) : Ordering :=
  (compare left.kind.rank right.kind.rank).then
    ((compareOptional left.resource right.resource).then (compare left.action right.action))

/-- Families in order without repetition. -/
def sortedDistinct (families : List Family) : List Family :=
  dropRepeats (families.mergeSort fun left right => left.order right != .gt)

end Family

namespace HandlerKey

def family (key : HandlerKey) : Family := ⟨key.kind, key.resource, key.action⟩

def text (key : HandlerKey) : String :=
  match key.resource with
  | some resource =>
    key.moduleId ++ "/" ++ key.kind.text ++ "/" ++ resource ++ "/" ++ key.action
  | none => key.moduleId ++ "/" ++ key.kind.text ++ "/" ++ key.action

/-- Keys are ordered by module and then by family. -/
def order (left right : HandlerKey) : Ordering :=
  (compare left.moduleId right.moduleId).then (left.family.order right.family)

/-- Whether a key does not come after another one. -/
def notAfter (left right : HandlerKey) : Bool := left.order right != .gt

def sorted (keys : List HandlerKey) : List HandlerKey := keys.mergeSort notAfter

/-- Keys in order without repetition. -/
def sortedDistinct (keys : List HandlerKey) : List HandlerKey := dropRepeats (sorted keys)

/-- The key that the segments of a text name. -/
def ofSegments : List String → Except KeyDefect HandlerKey
  | [moduleId, kindName, action] =>
    match Kind.ofText? kindName with
    | none => .error (.unknownKind kindName)
    | some .resource => .error .resourceMissing
    | some kind => .ok ⟨moduleId, kind, none, action⟩
  | [moduleId, kindName, resource, action] =>
    match Kind.ofText? kindName with
    | none => .error (.unknownKind kindName)
    | some .resource => .ok ⟨moduleId, .resource, some resource, action⟩
    | some _ => .error .resourceMisplaced
  | _ => .error .segmentCount

def parse (text : String) : Except InvalidKey HandlerKey :=
  let segments := Text.pieces '/' text
  if segments.any String.isEmpty then .error ⟨text, .emptySegment⟩
  else (ofSegments segments).mapError fun defect => ⟨text, defect⟩

end HandlerKey

end ModuleRoutes
