import ModuleRoutes.Handler.Basic
import ModuleRoutes.Route
import ModuleRoutes.Text.Quoted

/-!
# Bindings of keys to handlers

A binding gives each of its keys one handler. Binding a key again replaces its handler, so that no
key occurs twice.
-/

namespace ModuleRoutes

/-- The handlers of some keys. -/
structure Binding where
  entries : List (HandlerKey × Handler)

namespace Binding

def empty : Binding := ⟨[]⟩

def get? (binding : Binding) (key : HandlerKey) : Option Handler := binding.entries.lookup key

def contains (binding : Binding) (key : HandlerKey) : Bool := (binding.get? key).isSome

def size (binding : Binding) : Nat := binding.entries.length

def erase (binding : Binding) (key : HandlerKey) : Binding :=
  ⟨binding.entries.filter fun entry => entry.1 ≠ key⟩

def insert (binding : Binding) (key : HandlerKey) (handler : Handler) : Binding :=
  ⟨(key, handler) :: (binding.erase key).entries⟩

/-- The binding with the handlers of another one, which come before its own. -/
def extend (binding other : Binding) : Binding :=
  other.entries.foldr (fun (key, handler) extended => extended.insert key handler) binding

/-- The keys in order. -/
def keys (binding : Binding) : List HandlerKey := HandlerKey.sorted (binding.entries.map Prod.fst)

/-- The binding of declared handlers, each under the text of its key. A text that is no key is
refused, and so is one that is declared twice. -/
def ofDeclared (declared : List (String × Handler)) : Except InvalidKey Binding :=
  declared.foldlM
    (fun binding (text, handler) => do
      let key ← HandlerKey.parse text
      if binding.contains key then throw ⟨text, .registeredTwice⟩
      else pure (binding.insert key handler))
    empty

/-- The answer of a placeholder: the resource or else the kind of section, and the action. -/
def stubAnswer (key : HandlerKey) : Json :=
  .obj [("action", .str key.action), ("section", .str (key.resource.getD key.kind.text))]

/-- Placeholders for every route of a table. -/
def stubsFor (table : RouteTable) : Binding :=
  table.handlerKeys.foldl
    (fun binding key => binding.insert key (Handler.constant (stubAnswer key))) empty

/-- A binding as a message shows it: the texts of its keys in order. -/
def text (binding : Binding) : String :=
  let texts := (binding.entries.map fun entry => entry.1.text).mergeSort fun left right =>
    compare left right != .gt
  "HandlerMap \x7b keys: [" ++ Text.joined ", " (texts.map Text.quoted) ++ "] \x7d"

end Binding

end ModuleRoutes
