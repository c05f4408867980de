import RuleService.Failure
import RuleService.Text.Split

namespace RuleService

/-- Why a file that is there does not give its bytes. -/
inductive Refusal where
  /-- It may not be opened. -/
  | permissionDenied
  /-- It opens, and cannot be read. -/
  | inputOutput
  deriving DecidableEq, Repr

/-- What stands at a place of the tree. -/
inductive Entry where
  | file (bytes : ByteArray)
  | refused (why : Refusal)
  | directory
  deriving Inhabited

/-- Whether a regular file stands there. -/
def Entry.isFile : Entry → Bool
  | file _ | refused _ => true
  | directory => false

/-- Entries by the names that lead to them from the working directory. The directories on the way to
an entry need no entry of their own. -/
structure Files where
  entries : List (List String × Entry) := []
  deriving Inhabited

/-- Why a path cannot be read. -/
inductive ReadFault where
  | notFound
  | notADirectory
  | isADirectory
  | nameTooLong
  | zeroByte
  | refused (why : Refusal)
  | notText
  deriving DecidableEq, Repr

def Refusal.message : Refusal → String
  | permissionDenied => "Permission denied (os error 13)"
  | inputOutput => "Input/output error (os error 5)"

def ReadFault.message : ReadFault → String
  | notFound => "No such file or directory (os error 2)"
  | notADirectory => "Not a directory (os error 20)"
  | isADirectory => "Is a directory (os error 21)"
  | nameTooLong => "File name too long (os error 36)"
  | zeroByte => "file name contained an unexpected NUL byte"
  | refused why => why.message
  | notText => "stream did not contain valid UTF-8"

namespace Files

def entry? (files : Files) (place : List String) : Option Entry :=
  match files.entries.lookup place with
  | some e => some e
  | none =>
    if place.isEmpty || files.entries.any fun e => place.isPrefixOf e.1 then some .directory
    else none

/-- Bytes a name may have. -/
def nameLimit : Nat := 255

/-- Bytes a path may have. -/
def pathLimit : Nat := 4095

/-- Follows the parts of a path. A place above the working directory is `none`: nothing is known to
be there. -/
def follow (files : Files) : Option (List String) → List String → Except ReadFault Entry
  | none, [] => .error .isADirectory
  | some place, [] =>
    match files.entry? place with
    | some e => .ok e
    | none => .error .notFound
  | place, part :: rest =>
    match place.bind files.entry?, place with
    | some (.file _), _ | some (.refused _), _ => .error .notADirectory
    | none, some _ => .error .notFound
    | _, _ =>
      if part == "" || part == "." then follow files place rest
      else if part == ".." then
        follow files (place.bind fun p => if p.isEmpty then none else some p.dropLast) rest
      else if nameLimit < part.utf8ByteSize then .error .nameTooLong
      else match place with
        | some p => follow files (some (p ++ [part])) rest
        | none => .error .notFound

/-- The entry a path leads to. -/
def find (files : Files) (path : String) : Except ReadFault Entry :=
  if path.contains '\x00' then .error .zeroByte
  else if path.isEmpty then .error .notFound
  else if pathLimit < path.utf8ByteSize then .error .nameTooLong
  else files.follow (if path.startsWith "/" then none else some []) (Text.split "/" path)

/-- The bytes of the file at a path. -/
def readBytes (files : Files) (path : String) : Except ReadFault ByteArray := do
  match ← files.find path with
  | .file bytes => pure bytes
  | .refused why => throw (.refused why)
  | .directory => throw .isADirectory

/-- The text of the file at a path. -/
def readText (files : Files) (path : String) : Except ReadFault String := do
  match String.fromUTF8? (← files.readBytes path) with
  | some text => pure text
  | none => throw .notText

/-- The text of the file at a path, for a request. -/
def read (files : Files) (path : String) : Except Failure String :=
  (files.readText path).mapError fun
    | .notFound => .fileNotFound path
    | why => .unreadable path why.message

/-- Whether a path leads to a regular file. -/
def isFile (files : Files) (path : String) : Bool :=
  match files.find path with
  | .ok e => e.isFile
  | .error _ => false

/-- The place a plain path names. -/
def placeOf (path : String) : List String :=
  (Text.split "/" path).filter fun part => part != "" && part != "."

/-- Puts an entry at a path, over what was there. -/
def put (files : Files) (path : String) (e : Entry) : Files :=
  let place := placeOf path
  { entries := (place, e) :: files.entries.filter (·.1 != place) }

/-- Removes the entry at a path; its directory stays. -/
def remove (files : Files) (path : String) : Files :=
  let place := placeOf path
  let files : Files := { entries := files.entries.filter (·.1 != place) }
  files.put ("/".intercalate place.dropLast) .directory

end Files

end RuleService
