import ModuleRoutes.Text.Segments

/-!
# Paths of files

A path is a text whose parts are separated by slashes; one that begins with a slash is absolute.
Paths are joined and shown as they are written, without being resolved.
-/

namespace ModuleRoutes

namespace Files

def isAbsolute (path : String) : Bool := path.toList.head? = some '/'

/-- A path taken from a directory. An absolute path stays as it is. -/
def join (directory path : String) : String :=
  if isAbsolute path ∨ directory.isEmpty then path
  else if directory.toList.getLast? = some '/' then directory ++ path
  else directory ++ "/" ++ path

/-- The last part of a path that is a name. -/
def fileName? (path : String) : Option String :=
  match ((Text.segments '/' path).filter (· ≠ ".")).getLast? with
  | some ".." => none
  | other => other

/-- What follows the last dot of a name, if anything stands before that dot. -/
def extension? (path : String) : Option String := do
  let name ← fileName? path
  match (Text.pieces '.' name).reverse with
  | last :: before :: earlier => if earlier = [] ∧ before = "" then none else some last
  | _ => none

end Files

end ModuleRoutes
