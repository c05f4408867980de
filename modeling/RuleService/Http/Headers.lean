import RuleService.Text.Name

namespace RuleService.Http

/-- The signs that may stand in a token beside letters and digits. -/
def tokenSigns : List Char :=
  ['!', '#', '$', '%', '&', '\x27', '*', '+', '-', '.', '^', '_', '\x60', '|', '~']

def isTokenChar (c : Char) : Bool := c.isAlphanum || tokenSigns.contains c

/-- Whether a text is a token: the form of methods and of header names. -/
def isToken (s : String) : Bool := !s.isEmpty && s.all isTokenChar

/-- Bytes a header name may have. -/
def nameLimit : Nat := 65535

/-- A header name as it is kept: in lower case. -/
def headerName? (s : String) : Option String :=
  if isToken s && s.utf8ByteSize ≤ nameLimit then some (foldName s) else none

/-- A character of a header value: no control character but the tab. -/
def isValueChar (c : Char) : Bool := (32 ≤ c.toNat && c.toNat != 127) || c == '\t'

def isHeaderValue (s : String) : Bool := s.all isValueChar

/-- Whether a value is made of visible ASCII, blanks and tabs. -/
def isVisible (s : String) : Bool := s.all fun c => isValueChar c && c.toNat < 127

/-- Header fields in the order in which they were added, with names in lower case. -/
abbrev Headers := List (String × String)

namespace Headers

/-- The values of a name, in order. -/
def values (headers : Headers) (name : String) : List String :=
  (headers.filter (·.1 == name)).map (·.2)

def has (headers : Headers) (name : String) : Bool := headers.any (·.1 == name)

def remove (headers : Headers) (name : String) : Headers := headers.filter (·.1 != name)

def append (headers : Headers) (name value : String) : Headers := headers ++ [(name, value)]

end Headers

end RuleService.Http
