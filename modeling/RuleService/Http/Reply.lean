import RuleService.Http.Headers
import RuleService.Http.Status
import RuleService.Reply.ContentType
import RuleService.Response

namespace RuleService.Http

/-- A status, header fields and a body. -/
structure Reply where
  status : Nat := 200
  headers : Headers := []
  body : String := ""
  deriving DecidableEq, Repr, Inhabited

namespace Reply

/-- A reply with a body of some type. -/
def typed (contentType : String) (status : Nat) (body : String) : Reply :=
  { status, headers := [("content-type", contentType)], body }

def plainType : String := "text/plain; charset=utf-8"

def jsonType : String := "application/json"

def plain (status : Nat) (body : String) : Reply := typed plainType status body

def notFound : Reply := plain 404 "Not Found"

def document (v : Json) : Reply := typed jsonType 200 v.render

/-- The values a header stands for. -/
def valuesOf : Json → List String
  | .arr vs => vs.map Json.display
  | v => [v.display]

/-- Gives a header its values, in place of those it had. A bad name does nothing, and a bad value is left
out. -/
def setHeader (r : Reply) (name : String) (v : Json) : Reply :=
  match headerName? name with
  | none => r
  | some n =>
    let values := (valuesOf v).filter isHeaderValue
    { r with headers := r.headers.remove n ++ values.map fun x => (n, x) }

def setHeaders (r : Reply) (headers : Fields) : Reply :=
  headers.foldl (fun r h => r.setHeader h.1 h.2) r

/-- The status of a response; one that is no status code stands for 500. -/
def statusOf (n : Nat) : Nat := if isStatus n then n else 500

/-- A redirect without a body. A target that no header can hold is left out. -/
def redirect (status : Nat) (target : String) : Reply where
  status := if isRedirection status then status else 302
  headers := if isHeaderValue target then [("location", target)] else []

/-- A body: without one the reason phrase is sent, a text is sent as it is, and all else as a document. -/
def withBody (status : Nat) : Json → Reply
  | .null => plain status ((reason? status).getD "")
  | .str s => plain status s
  | v => { document v with status }

def ofResponse (r : Response) : Reply :=
  let status := statusOf r.status
  (match r.redirect with
    | some target => redirect status target
    | none => withBody status r.body).setHeaders r.headers

/-- Adds the length of the body, unless a length is given. -/
def withLength (r : Reply) : Reply :=
  if r.headers.has "content-length" then r
  else { r with headers := r.headers.append "content-length" (toString r.body.utf8ByteSize) }

/-- Makes a reply ready for a method: `HEAD` has a length and no body, and a tunnel that is granted has
neither. -/
def finish (method : String) (r : Reply) : Reply :=
  if method == "CONNECT" && isSuccess r.status then { r with body := "" }
  else
    let r := r.withLength
    if method == "HEAD" then { r with body := "" } else r

end Reply

end RuleService.Http
