import RuleService.Failure
import RuleService.Storage.Address
import RuleService.Text.Utf8

namespace RuleService

/-- How a request to a storage service ends. -/
inductive StorageAnswer where
  | answered (status : Nat) (body : ByteArray)
  /-- No answer came. -/
  | unreached (why : String)

/-- A storage service: its endpoint, and what it answers to a URL. -/
structure ObjectStore where
  endpoint : String
  get : String → StorageAnswer

namespace ObjectStore

/-- The endpoint that is used unless another is given. -/
def stockEndpoint : String := "https://s3.amazonaws.com"

/-- Bytes an object may have. -/
def sizeLimit : Nat := 10 * 1024 * 1024

def withoutSlashes (endpoint : String) : String :=
  String.ofList (endpoint.toList.reverse.dropWhile (· == '/')).reverse

def url (endpoint : String) (a : Address) : String :=
  withoutSlashes endpoint ++ "/" ++ a.bucket ++ "/" ++ a.key

/-- The URL a path leads to. -/
def urlOf? (endpoint path : String) : Option String := (Address.ofPath? path).map (url endpoint)

/-- The text of the object a path names. -/
def read (store : ObjectStore) (path : String) : Except Failure String :=
  match urlOf? store.endpoint path with
  | none => .error (.unreadable path "not an object storage URI")
  | some url =>
    match store.get url with
    | .unreached why => .error (.unreadable path why)
    | .answered status body =>
      if status == 404 then .error (.fileNotFound path)
      else if 400 ≤ status then
        .error (.unreadable path ("object storage answered " ++ toString status))
      else if sizeLimit < body.size then
        .error (.unreadable path "response too big for into_string")
      else .ok (Text.ofBytes body)

end ObjectStore

/-- The ways to the two kinds of storage. -/
structure Readers where
  files : String → Except Failure String
  objects : String → Except Failure String

/-- The text a path leads to. -/
def Readers.read (readers : Readers) (path : String) : Except Failure String :=
  if isObjectPath path then readers.objects path else readers.files path

end RuleService
