import ModuleRoutes.Method

/-!
# Verbs of a resource

Five actions of a resource are verbs with a fixed method and a fixed way to address an item. Other
common names for them are aliases: an alias stands for its verb only where the action already has
the verb's method and addressing, so that `PUT /alerts/:id/read` keeps its name.
-/

namespace ModuleRoutes

/-- The verbs of a resource, in the order of the table. -/
inductive Verb where
  | list
  | detail
  | create
  | update
  | delete
deriving DecidableEq, Repr

namespace Verb

def all : List Verb := [.list, .detail, .create, .update, .delete]

def text : Verb → String
  | .list => "list"
  | .detail => "detail"
  | .create => "create"
  | .update => "update"
  | .delete => "delete"

def ofText? (name : String) : Option Verb := all.find? fun verb => verb.text = name

/-- The other names of verbs. -/
def aliases : List (String × Verb) :=
  [("index", .list), ("all", .list), ("browse", .list), ("show", .detail), ("get", .detail),
    ("view", .detail), ("read", .detail), ("new", .create), ("add", .create), ("edit", .update),
    ("modify", .update), ("patch", .update), ("remove", .delete), ("destroy", .delete),
    ("del", .delete)]

def method : Verb → Method
  | .list | .detail => .get
  | .create => .post
  | .update => .put
  | .delete => .delete

def needsId : Verb → Bool
  | .list | .create => false
  | .detail | .update | .delete => true

/-- Whether an action has the method and the addressing of a verb. -/
def fits (verb : Verb) (method : Method) (needsId : Bool) : Bool :=
  verb.method = method && verb.needsId = needsId

/-- The verb that a name is an alias of, by its name; other names stay. -/
def canonicalAction (name : String) : String :=
  match aliases.lookup name with
  | some verb => verb.text
  | none => name

/-- The verb that an action of a given shape is named after by an alias; other names stay. -/
def canonicalActionFor (name : String) (method : Method) (needsId : Bool) : String :=
  match aliases.lookup name with
  | some verb => if verb.fits method needsId then verb.text else name
  | none => name

def isVerb (name : String) : Bool := (ofText? name).isSome

end Verb

end ModuleRoutes
