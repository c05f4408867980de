import RuleService.Http.Form
import RuleService.Http.Headers
import RuleService.Http.Uri

namespace RuleService.Http

/-- A request. -/
structure Call where
  method : String
  uri : Uri
  headers : Headers := []
  /-- The address of the client, empty if it is not known. -/
  ip : String := ""
  body : ByteArray := ByteArray.empty
  deriving Inhabited

namespace Call

/-- Bytes a body may have. -/
def bodyLimit : Nat := 16 * 1024 * 1024

/-- A request of these parts, if they have the form of one. -/
def of? (method target : String) (headers : List (String × String)) (ip : String)
    (body : ByteArray) : Option Call := do
  guard (isToken method)
  let uri ← Uri.ofText? target
  let headers ← headers.mapM fun (name, value) => do
    let name ← headerName? name
    guard (isHeaderValue value)
    pure (name, value)
  pure { method, uri, headers, ip, body }

/-- The headers that rules see: those with a visible value, the last one of a name. -/
def visibleHeaders (headers : Headers) : Texts :=
  Named.ofList (headers.filter fun h => isVisible h.2)

/-- Whether a text holds another. -/
def holds (part : List Char) : List Char → Bool
  | [] => part.isEmpty
  | c :: cs => part.isPrefixOf (c :: cs) || holds part cs

/-- The content type in lower case, empty if there is none that is visible. -/
def contentType (headers : Headers) : String :=
  match headers.values "content-type" with
  | value :: _ => if isVisible value then foldName value else ""
  | [] => ""

/-- The body as a document, if it is one. -/
def document? (body : ByteArray) : Option Json :=
  (String.fromUTF8? body).bind fun text => (Json.parse text).toOption

/-- The body as rules see it. Documents and forms are read; all else is text, and nothing is an empty
object. -/
def bodyValue (headers : Headers) (body : ByteArray) : Json :=
  let type := contentType headers
  if body.isEmpty then .obj []
  else if holds "json".toList type.toList then (document? body).getD (.str (Text.ofBytes body))
  else if type.startsWith "application/x-www-form-urlencoded" then
    (Form.texts body.toList).toJson
  else .str (Text.ofBytes body)

/-- What rules see of a request, given what the pattern of its route binds. -/
def toRequest (call : Call) (params : Texts) : Request where
  method := call.method.map Char.toUpper
  url := call.uri.whole.getD call.uri.path
  path := call.uri.path
  ip := call.ip
  params := params
  query := match call.uri.query with
    | some query => Form.texts query.toUTF8.toList
    | none => []
  headers := visibleHeaders call.headers
  body := bodyValue call.headers call.body

end Call

end RuleService.Http
