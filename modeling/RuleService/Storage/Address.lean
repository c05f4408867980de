namespace RuleService

/-- What an address names: it is `s3://`, a bucket without slashes, a slash, and a key on one line. -/
structure Address where
  bucket : String
  key : String
  deriving DecidableEq, Repr, Inhabited

namespace Address

/-- The letter s in each of its cases, the long s among them. -/
def isLetterS (c : Char) : Bool := c == 's' || c == 'S' || c == '\u017F'

/-- The bucket and the key in the characters after `s3://`. -/
def splitKey? (cs : List Char) : Option (List Char × List Char) :=
  match cs.takeWhile (· != '/'), cs.dropWhile (· != '/') with
  | [], _ => none
  | bucket, '/' :: key => if key.isEmpty || key.contains '\n' then none else some (bucket, key)
  | _, _ => none

def ofChars? : List Char → Option Address
  | s :: '3' :: ':' :: '/' :: '/' :: rest =>
    if isLetterS s then
      (splitKey? rest).map fun (bucket, key) => ⟨String.ofList bucket, String.ofList key⟩
    else none
  | _ => none

/-- The address a path is, if it is one. -/
def ofPath? (path : String) : Option Address := ofChars? path.toList

end Address

/-- Whether a path leads to object storage. -/
def isObjectPath (path : String) : Bool := (Address.ofPath? path).isSome

end RuleService
