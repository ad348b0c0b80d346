import ModuleRoutes.Method
import ModuleRoutes.Text.Blank
import ModuleRoutes.Text.Segments

/-!
# Registrations in a router source

A router source registers a route by a call of the router's method with a quoted path, and a stub
body names the route's section and action in quotes. Both are recognized line by line; everything
else in the source is passed over.
-/

namespace ModuleRoutes

namespace Registration

/-- Whether a character opens and closes a quoted text. -/
def isQuote (c : Char) : Bool := c = '\'' || c = '"' || c = '\x60'

/-- What stands before the first occurrence of a character, and what follows it. -/
def cutAt? (c : Char) : List Char → Option (List Char × List Char)
  | [] => none
  | d :: rest =>
    if d = c then some ([], rest)
    else (cutAt? c rest).map fun (before, after) => (d :: before, after)

/-- The quoted text that a text begins with, blanks apart. -/
def quotedText? (text : List Char) : Option (List Char) :=
  match text.dropWhile Text.isBlank with
  | quote :: body => if isQuote quote then (cutAt? quote body).map Prod.fst else none
  | [] => none

/-- The method and the path that a line registers. -/
def registered? (line : List Char) : Option (Method × List Char) := do
  let call ← Text.afterFirst? "router.".toList line
  let (name, arguments) ← cutAt? '(' call
  let method ← (Method.parse (String.ofList (Text.trim name))).toOption
  let path ← quotedText? arguments
  pure (method, path)

/-- The quoted text after the first occurrence of a label. -/
def labelled? (label : String) (line : List Char) : Option (List Char) :=
  (Text.afterFirst? label.toList line).bind quotedText?

/-- A section and an action that a stub body names. -/
structure StubLabel where
  part : String
  action : String
deriving DecidableEq, Repr

/-- The section and the action that a line names. -/
def stubLabel? (line : List Char) : Option StubLabel := do
  let part ← labelled? "section:" line
  let action ← labelled? "action:" line
  pure ⟨String.ofList part, String.ofList action⟩

/-- A path as routes have it: without blanks around it and slashes behind it, with a slash in
front. -/
def cleanPath (raw : List Char) : String :=
  let path := Text.dropEndWhile (· = '/') (Text.trim raw)
  match path with
  | [] => "/"
  | '/' :: _ => String.ofList path
  | _ => String.ofList ('/' :: path)

end Registration

end ModuleRoutes
