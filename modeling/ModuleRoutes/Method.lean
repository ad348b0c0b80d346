/-!
# Request methods

The five methods that a route may answer. A method is written in upper case; where a router source
names it, any case is read.
-/

namespace ModuleRoutes

/-- The method of a route. -/
inductive Method where
  | get
  | post
  | put
  | delete
  | patch
deriving DecidableEq, Repr, Inhabited

namespace Method

/-- Every method, in the order in which messages list them. -/
def all : List Method := [.get, .post, .put, .delete, .patch]

def text : Method → String
  | .get => "GET"
  | .post => "POST"
  | .put => "PUT"
  | .delete => "DELETE"
  | .patch => "PATCH"

def named : List (String × Method) := all.map fun method => (method.text, method)

def ofText? : String → Option Method
  | "GET" => some .get
  | "POST" => some .post
  | "PUT" => some .put
  | "DELETE" => some .delete
  | "PATCH" => some .patch
  | _ => none

/-- The method with a name in any case, or the name in upper case when there is none. -/
def parse (name : String) : Except String Method :=
  let upper := name.map Char.toUpper
  match ofText? upper with
  | some method => .ok method
  | none => .error upper

/-- The name of a method in lower case, as router sources write it. -/
def lowerText (method : Method) : String := method.text.map Char.toLower

def unknownText (upper : String) : String := "unknown HTTP method `" ++ upper ++ "`"

/-- Whether requests of a method carry a body by convention. -/
def carriesBody : Method → Bool
  | .post | .put | .patch => true
  | .get | .delete => false

end Method

end ModuleRoutes
