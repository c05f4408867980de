import RuleService.Json.Reader
import RuleService.Reply.ContentType
import RuleService.Reply.Ending
import RuleService.Service.Rule
import RuleService.Storage.Path

namespace RuleService

/-- The name of the header with the content type. -/
def contentTypeName : String := "content-type"

namespace Recipe

/-- A header value: text, or a list of texts. -/
def headerValue : Json → Json
  | .arr vs => .arr (vs.map fun v => .str v.display)
  | v => .str v.display

def setHeaders (headers : Fields) (r : Response) : Response :=
  headers.foldl (fun r h => r.setHeader h.1 (headerValue h.2)) r

end Recipe

namespace Ending

/-- The text that is sent for a file. Pages are expanded as texts and documents as templates. -/
def fileText (h : Host) (ctx : Context) (path extension content : String) : Effect String :=
  if extension == "html" || extension == "htm" then
    Json.display <$> expand h.engine ctx content
  else if extension == "json" then
    match Json.parse content with
    | .ok v => Json.render <$> interpolateDocument h ctx v
    | .error why => throw (.unreadable path ("invalid JSON: " ++ why))
  else pure content

def sendFile (h : Host) (ctx : Context) (path : String) : Effect Unit := do
  let content ← h.readFile path
  let extension := foldName (Path.extension path)
  let text ← fileText h ctx path extension content
  Effect.reply fun r =>
    { r.setDefaultHeader contentTypeName (ContentType.ofExtension extension) with body := .str text }

/-- The status of a redirect: what it was, if that is one of a redirect. -/
def redirectStatus (status : Nat) : Nat := if 300 ≤ status ∧ status < 400 then status else 302

/-- Makes the response. -/
def perform (h : Host) (ctx : Context) : Ending → Effect Unit
  | file path => sendFile h ctx path
  | redirect target => Effect.reply fun r =>
    { r with status := redirectStatus r.status, redirect := some target }
  | status code => Effect.reply fun r => { r with status := code, body := .null }
  | text body => Effect.reply fun r =>
    { r.setDefaultHeader contentTypeName ContentType.html with body := .str body }
  | missing => Effect.reply fun r => { r with status := 500, body := .null }

end Ending

namespace Rule

def runScript (h : Host) (ctx : Context) : Option Script → Effect Unit
  | some script => script.execute h.engine ctx
  | none => pure ()

/-- Carries out a rule: its first script, its template, its headers, its ending and its last script. -/
def run (h : Host) (ctx : Context) (rule : Rule) : Effect Unit := do
  runScript h ctx rule.before
  let recipe := Recipe.ofJson (← interpolateDocument h ctx rule.template)
  Effect.reply (Recipe.setHeaders recipe.headers)
  recipe.ending.perform h ctx
  runScript h ctx rule.after

/-- Carries out the first rule that applies. -/
def runFirst (h : Host) (ctx : Context) (rules : List Rule) : Effect Unit := do
  match ← resolve h.engine ctx 0 rules with
  | some (_, rule) => rule.run h ctx
  | none => throw (.unresolved ctx.request.method ctx.request.path)

end Rule

namespace Response

/-- What is left of a response after a failure: a bare status, and the headers. -/
def failed (f : Failure) (r : Response) : Response :=
  { r with status := if f.isNotFound then 404 else 500, body := .null, redirect := none }

end Response

/-- The state after some work, its response bare if the work failed. -/
def answered (work : Effect Unit) (s : State) : State :=
  match work.run s with
  | (.ok (), s) => s
  | (.error f, s) => { s with response := s.response.failed f }

/-- Answers a request by the rules of its route. -/
def dispatch (h : Host) (ctx : Context) (rules : List Rule) (s : State) : State :=
  answered (Rule.runFirst h ctx rules) s

/-- Answers a request by one rule, whether it applies or not. -/
def dispatchRule (h : Host) (ctx : Context) (rule : Rule) (s : State) : State :=
  answered (rule.run h ctx) s

end RuleService
