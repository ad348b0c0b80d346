import ModuleRoutes.Files.Fault
import ModuleRoutes.Files.Path

/-!
# Trees of files

A tree says what stands under each list of names: a file with its content, or a directory. The root
is always a directory. Paths are followed part by part, so that what is missing, and what is no
directory though something is sought below it, shows as it does on a disk.
-/

namespace ModuleRoutes

namespace Files

/-- What a file holds: text, or bytes that are no text. -/
inductive Content where
  | text (value : String)
  | binary
deriving DecidableEq, Repr

/-- What stands under a list of names. -/
inductive Entry where
  | file (content : Content)
  | directory
deriving DecidableEq, Repr

/-- A tree of files and directories. -/
structure Tree where
  entries : List (List String × Entry)
deriving DecidableEq, Repr

namespace Tree

def empty : Tree := ⟨[]⟩

/-- What stands at a place. -/
def get? (tree : Tree) (place : List String) : Option Entry :=
  if place = [] then some .directory else tree.entries.lookup place

/-- A tree with something else at a place. -/
def set (tree : Tree) (place : List String) (entry : Entry) : Tree :=
  ⟨(place, entry) :: tree.entries.filter fun other => other.1 ≠ place⟩

/-- The greatest number of bytes in a name. -/
def nameLimit : Nat := 255

/-- The place that one part of a path leads to from a place. -/
def enter (tree : Tree) (place : List String) (part : String) : Except FileFault (List String) :=
  match tree.get? place with
  | some .directory =>
    if part = "" ∨ part = "." then .ok place
    else if part = ".." then .ok place.dropLast
    else if nameLimit < part.utf8ByteSize then .error .nameTooLong
    else
      match tree.get? (place ++ [part]) with
      | some _ => .ok (place ++ [part])
      | none => .error .notFound
  | some (.file _) => .error .notDirectory
  | none => .error .notFound

/-- The place from which a path is followed. -/
def startOf (current : List String) (path : String) : List String :=
  if isAbsolute path then [] else current

/-- The place that a path leads to. -/
def follow (tree : Tree) (current : List String) (path : String) :
    Except FileFault (List String) :=
  if path.isEmpty then .error .notFound
  else if path.contains (Char.ofNat 0) then .error .nulInPath
  else (Text.pieces '/' path).foldlM tree.enter (startOf current path)

/-- What stands where a path leads. -/
def find (tree : Tree) (current : List String) (path : String) : Except FileFault Entry := do
  let place ← tree.follow current path
  match tree.get? place with
  | some entry => pure entry
  | none => throw .notFound

def readText (tree : Tree) (current : List String) (path : String) : Except FileFault String := do
  match ← tree.find current path with
  | .directory => throw .isDirectory
  | .file .binary => throw .notText
  | .file (.text value) => pure value

/-- A tree with one more directory where one part of a path leads, and that place. -/
def makeStep (state : Tree × List String) (part : String) :
    Except FileFault (Tree × List String) :=
  match state.1.enter state.2 part with
  | .ok place => .ok (state.1, place)
  | .error .notFound => .ok (state.1.set (state.2 ++ [part]) .directory, state.2 ++ [part])
  | .error fault => .error fault

/-- A tree with the directory that a path names, and those above it. -/
def makeDirectories (tree : Tree) (current : List String) (path : String) :
    Except FileFault Tree := do
  if path.isEmpty then pure tree
  else if path.contains (Char.ofNat 0) then throw .nulInPath
  else
    let (made, place) ← (Text.segments '/' path).foldlM makeStep (tree, startOf current path)
    match made.get? place with
    | some .directory => pure made
    | _ => throw .alreadyExists

/-- A tree with a text in the file that a path names. -/
def writeText (tree : Tree) (current : List String) (path text : String) :
    Except FileFault Tree := do
  if path.contains (Char.ofNat 0) then throw .nulInPath
  match (Text.pieces '/' path).reverse with
  | [] => throw .notFound
  | name :: above =>
    if path.isEmpty then throw .notFound
    let place ← above.reverse.foldlM tree.enter (startOf current path)
    match tree.enter place name with
    | .ok target =>
      match tree.get? target with
      | some (.file _) => pure (tree.set target (.file (.text text)))
      | _ => throw .isDirectory
    | .error .notFound => pure (tree.set (place ++ [name]) (.file (.text text)))
    | .error fault => throw fault

/-- The order of lists of names: by the first name that differs, a list before those that go on. -/
def notAfter : List String → List String → Bool
  | [], _ => true
  | _ :: _, [] => false
  | left :: lefts, right :: rights =>
    match compare left right with
    | .lt => true
    | .gt => false
    | .eq => notAfter lefts rights

/-- The names that lead from a place to one below it. -/
def below? : List String → List String → Option (List String)
  | [], place => some place
  | _ :: _, [] => none
  | name :: names, other :: place => if name = other then below? names place else none

def isFile : Entry → Bool
  | .file _ => true
  | .directory => false

/-- The files at and below the place that a path leads to, in the order of their names, each as the
path goes on. -/
def filesBelow (tree : Tree) (current : List String) (path : String) :
    Except FileFault (List String) := do
  let place ← tree.follow current path
  let found := tree.entries.filterMap fun (other, entry) =>
    if isFile entry then below? place other else none
  pure ((found.mergeSort notAfter).map fun names => names.foldl join path)

end Tree

end Files

end ModuleRoutes
