import ModuleRoutes.Files.Tree

/-!
# Stores of files

Programs that use files are written over any store that offers these operations. A tree with a
current directory is such a store, on which what a program does can be stated.
-/

namespace ModuleRoutes

namespace Files

/-- The operations of a store of files. Paths that are not absolute start from the current
directory. -/
class Store (m : Type → Type) where
  currentDirectory : m String
  readText (path : String) : m (Except FileFault String)
  isFile (path : String) : m Bool
  isPresent (path : String) : m Bool
  filesBelow (path : String) : m (Except FileFault (List String))
  makeDirectories (path : String) : m (Except FileFault Unit)
  writeText (path text : String) : m (Except FileFault Unit)

/-- A tree with a current directory. -/
structure Disk where
  tree : Tree
  current : List String
deriving DecidableEq, Repr

namespace Disk

/-- Replaces the tree of a disk, or leaves it as it is when the change fails. -/
def change (update : Tree → List String → Except FileFault Tree) :
    StateM Disk (Except FileFault Unit) := fun disk =>
  match update disk.tree disk.current with
  | .ok tree => (.ok (), { disk with tree := tree })
  | .error fault => (.error fault, disk)

instance : Store (StateM Disk) where
  currentDirectory := do pure ("/" ++ Text.joined "/" (← get).current)
  readText path := do
    let disk ← get
    pure (disk.tree.readText disk.current path)
  isFile path := do
    let disk ← get
    pure (match disk.tree.find disk.current path with
      | .ok entry => Tree.isFile entry
      | .error _ => false)
  isPresent path := do
    let disk ← get
    pure (match disk.tree.find disk.current path with
      | .ok _ => true
      | .error _ => false)
  filesBelow path := do
    let disk ← get
    pure (disk.tree.filesBelow disk.current path)
  makeDirectories path := change fun tree current => tree.makeDirectories current path
  writeText path text := change fun tree current => tree.writeText current path text

end Disk

end Files

end ModuleRoutes
