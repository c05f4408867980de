namespace RuleService.Http

/-- What a request target says about the resource: a path with a query, an absolute address, or an authority
alone. A fragment is dropped. -/
structure Uri where
  path : String
  query : Option String
  /-- The path with its query; an authority alone has none. -/
  whole : Option String
  deriving DecidableEq, Repr, Inhabited

namespace Uri

/-- Bytes a target may have. -/
def limit : Nat := 65534

/-- A character that a path may hold as it is. -/
def isPathChar (c : Char) : Bool :=
  let n := c.toNat
  n == 0x21 || n == 0x22 || (0x24 ≤ n && n ≤ 0x3B) || n == 0x3D || (0x40 ≤ n && n ≤ 0x5F) ||
    (0x61 ≤ n)

/-- A character that a query may hold as it is. -/
def isQueryChar (c : Char) : Bool :=
  let n := c.toNat
  n == 0x21 || (0x24 ≤ n && n ≤ 0x3B) || n == 0x3D || 0x3F ≤ n

/-- A path with its query. An empty path stands for the root. -/
def ofPath? (cs : List Char) : Option Uri :=
  let kept := cs.takeWhile (· != '#')
  let path := kept.takeWhile (· != '?')
  let orRoot (cs : List Char) : String := if cs.isEmpty then "/" else String.ofList cs
  match kept.dropWhile (· != '?') with
  | _ :: query =>
    if path.all isPathChar && query.all isQueryChar then
      some ⟨orRoot path, some (String.ofList query), some (orRoot kept)⟩
    else none
  | [] => if path.all isPathChar then some ⟨orRoot path, none, some (orRoot kept)⟩ else none

/-- A character of an authority, apart from the percent sign. -/
def isAuthorityChar (c : Char) : Bool :=
  c.isAlphanum || ['!', '$', '&', '\x27', '(', ')', '*', '+', ',', '-', '.', ':', ';', '=', '@', '[',
    ']', '_', '~'].contains c

/-- What has been seen of an authority. -/
structure AuthorityScan where
  colons : Nat := 0
  opened : Bool := false
  closed : Bool := false
  percent : Bool := false
  lastIsAt : Bool := false

/-- Colons an authority may have in a row of groups. -/
def colonLimit : Nat := 8

/-- Looks at the next character of an authority. Colons and percent signs count only outside brackets and
after the user. -/
def AuthorityScan.next? (s : AuthorityScan) (c : Char) : Option AuthorityScan :=
  let s := { s with lastIsAt := false }
  if c == ':' then
    if colonLimit ≤ s.colons then none else some { s with colons := s.colons + 1 }
  else if c == '[' then
    if s.percent || s.opened then none else some { s with opened := true }
  else if c == ']' then
    if !s.opened || s.closed then none
    else some { s with closed := true, colons := 0, percent := false }
  else if c == '@' then some { s with colons := 0, percent := false, lastIsAt := true }
  else if c == '%' then some { s with percent := true }
  else if isAuthorityChar c then some s
  else none

/-- Whether an authority may end here. -/
def AuthorityScan.complete (s : AuthorityScan) : Bool :=
  s.opened == s.closed && s.colons ≤ 1 && !s.lastIsAt && !s.percent

/-- Cuts an authority off the front. -/
def takeAuthority? (cs : List Char) : Option (List Char × List Char) :=
  let ends (c : Char) : Bool := c == '/' || c == '?' || c == '#'
  let authority := cs.takeWhile (!ends ·)
  match authority.foldlM AuthorityScan.next? {} with
  | some s => if s.complete then some (authority, cs.dropWhile (!ends ·)) else none
  | none => none

def isSchemeChar (c : Char) : Bool := c.isAlphanum || ['+', '-', '.', '~'].contains c

/-- Letters a scheme may have. -/
def schemeLimit : Nat := 64

/-- What follows the scheme and its slashes; none if there is no scheme, and an inner none if the scheme
is too long. -/
def afterScheme? (cs : List Char) : Option (Option (List Char)) :=
  let scheme := cs.takeWhile isSchemeChar
  match cs.dropWhile isSchemeChar with
  | ':' :: '/' :: '/' :: rest => some (if scheme.length ≤ schemeLimit then some rest else none)
  | _ => none

/-- An authority alone. -/
def ofAuthority? (cs : List Char) : Option Uri :=
  match takeAuthority? cs with
  | some (_, []) => some ⟨"", none, none⟩
  | _ => none

/-- The target a text is. -/
def ofText? (text : String) : Option Uri :=
  if limit < text.utf8ByteSize then none
  else match text.toList with
    | [] => none
    | ['*'] => some ⟨"*", none, some "*"⟩
    | '/' :: rest => ofPath? ('/' :: rest)
    | cs =>
      match afterScheme? cs with
      | none => ofAuthority? cs
      | some none => none
      | some (some rest) =>
        match takeAuthority? rest with
        | none | some ([], _) => none
        | some (_, rest) => ofPath? rest

end Uri

end RuleService.Http
