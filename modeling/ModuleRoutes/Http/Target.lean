import ModuleRoutes.Text.Segments

/-!
# Request lines

The target of a request is a path with perhaps a query, the same behind a scheme and an authority,
an authority alone, or a star. Each part admits its own characters; beyond ASCII all are admitted in
paths and queries. A method is any token.
-/

namespace ModuleRoutes

namespace Http

/-- What a request asks for. An authority alone has an empty path. -/
structure Target where
  path : List Char
  query : Option (List Char)
deriving DecidableEq, Repr

def isTokenChar (c : Char) : Bool :=
  c.isAlphanum || "!#$%&'*+-.^_\x60|~".toList.contains c

def isMethodName (name : String) : Bool := !name.isEmpty && name.toList.all isTokenChar

/-- Whether a text can be the value of a header. -/
def isHeaderText (value : String) : Bool :=
  value.toList.all fun c => c = '\t' || (32 ≤ c.toNat && c.toNat ≠ 127)

def isPathChar (c : Char) : Bool :=
  let n := c.toNat
  n = 0x21 || n = 0x22 || (0x24 ≤ n && n ≤ 0x3B) || n = 0x3D || (0x40 ≤ n && n ≤ 0x5F)
    || (0x61 ≤ n && n ≤ 0x7E) || 0x7F ≤ n

def isQueryChar (c : Char) : Bool :=
  let n := c.toNat
  n = 0x21 || (0x24 ≤ n && n ≤ 0x3B) || n = 0x3D || 0x3F ≤ n

/-- The query of a target from its first character, without the fragment behind it. -/
def readQuery? (text : List Char) : Option (List Char) :=
  let query := text.takeWhile (· ≠ '#')
  if query.all isQueryChar then some query else none

/-- The path and the query of a target. What stands behind a hash sign is no part of either. -/
def readPath? (text : List Char) : Option Target :=
  let path := text.takeWhile fun c => c ≠ '?' && c ≠ '#'
  if path.all isPathChar then
    match text.dropWhile fun c => c ≠ '?' && c ≠ '#' with
    | '?' :: rest => (readQuery? rest).map fun query => ⟨path, some query⟩
    | _ => some ⟨path, none⟩
  else none

def isAuthorityChar (c : Char) : Bool :=
  c.isAlphanum || "!$&'()*+,-.:;=@[]_~%".toList.contains c

/-- What has been seen of an authority: colons and percent signs since the last mark that makes them
harmless, and the brackets of an address. -/
structure AuthorityScan where
  colons : Nat
  percent : Bool
  opened : Bool
  closed : Bool

/-- The scan after one more character, none when the character cannot stand there. -/
def AuthorityScan.take? (scan : AuthorityScan) (c : Char) : Option AuthorityScan :=
  if c = ':' then if 8 ≤ scan.colons then none else some { scan with colons := scan.colons + 1 }
  else if c = '[' then
    if scan.percent ∨ scan.opened then none else some { scan with opened := true }
  else if c = ']' then
    if !scan.opened ∨ scan.closed then none
    else some { scan with closed := true, colons := 0, percent := false }
  else if c = '@' then some { scan with colons := 0, percent := false }
  else if c = '%' then some { scan with percent := true }
  else if isAuthorityChar c then some scan
  else none

def isAuthority (text : List Char) : Bool :=
  match text.foldlM AuthorityScan.take? ⟨0, false, false, false⟩ with
  | none => false
  | some scan =>
    scan.opened = scan.closed && scan.colons ≤ 1 && !scan.percent && text.getLast? ≠ some '@'

def isSchemeChar (c : Char) : Bool := c.isAlphanum || c = '+' || c = '-' || c = '.' || c = '~'

/-- The greatest length of a scheme. -/
def schemeLimit : Nat := 64

/-- The greatest number of bytes in a target. -/
def targetLimit : Nat := 65534

/-- The target that an absolute address names, or an authority alone. -/
def readAbsolute? (text : List Char) : Option Target :=
  let scheme := text.takeWhile isSchemeChar
  match text.dropWhile isSchemeChar with
  | ':' :: '/' :: '/' :: rest =>
    let isEnd := fun c => c = '/' || c = '?' || c = '#'
    let authority := rest.takeWhile fun c => !isEnd c
    if schemeLimit < scheme.length ∨ authority = [] ∨ !isAuthority authority then none
    else
      (readPath? (rest.dropWhile fun c => !isEnd c)).map fun target =>
        if target.path = [] then { target with path := ['/'] } else target
  | _ => if isAuthority text ∧ !text.isEmpty then some ⟨[], none⟩ else none

def Target.parse? (text : String) : Option Target :=
  if targetLimit < text.utf8ByteSize then none
  else
    match text.toList with
    | [] => none
    | ['*'] => some ⟨['*'], none⟩
    | '/' :: rest => readPath? ('/' :: rest)
    | other => readAbsolute? other

end Http

end ModuleRoutes
