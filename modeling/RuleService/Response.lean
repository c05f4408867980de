import RuleService.Json.Printer
import RuleService.Json.Record
import RuleService.Text.Name

namespace RuleService

structure Response where
  status : Nat := 200
  headers : Fields := []
  body : Json := .null
  redirect : Option String := none
  deriving Inhabited

namespace Response

/-- The greatest number a status can be. -/
def greatestStatus : Nat := 65535

/-- The value of a header, by its name in any case. -/
def header? (r : Response) (name : String) : Option Json :=
  (r.headers.find? fun h => sameName h.1 name).map (·.2)

/-- Sets a header; a name that is there in another case keeps its spelling. -/
def setHeader (r : Response) (name : String) (v : Json) : Response :=
  let spelling := ((r.headers.find? fun h => sameName h.1 name).map (·.1)).getD name
  { r with headers := r.headers.put spelling v }

/-- Sets a header unless there is one of that name. -/
def setDefaultHeader (r : Response) (name value : String) : Response :=
  match r.header? name with
  | some _ => r
  | none => { r with headers := r.headers.put name (.str value) }

/-- The value that `response` stands for in a snippet. -/
def toJson (r : Response) : Json :=
  .obj
    [("status", .int r.status), ("headers", .obj r.headers), ("body", r.body),
      ("redirect", r.redirect.elim .null .str)]

/-- A status as a snippet gives it. -/
def statusOf? : Option Json → Option Nat
  | none => some 200
  | some (.int n) => if 0 ≤ n ∧ n ≤ greatestStatus then some n.toNat else none
  | some _ => none

def headersOf? : Option Json → Option Fields
  | none => some []
  | some (.obj fields) => some fields
  | some _ => none

def redirectOf? : Option Json → Option (Option String)
  | none | some .null => some none
  | some (.str s) => some (some s)
  | some _ => none

/-- The response that a value stands for. What is absent has its default, and what is unknown is
ignored. -/
def ofJson? (v : Json) : Option Response :=
  match v with
  | .obj fields => do
    let status ← statusOf? (Named.get? fields "status")
    let headers ← headersOf? (Named.get? fields "headers")
    let redirect ← redirectOf? (Named.get? fields "redirect")
    pure { status, headers, body := (Named.get? fields "body").getD .null, redirect }
  | _ => none

/-- Equality of responses, up to the order of keys. -/
def same (a b : Response) : Bool :=
  a.status == b.status && Json.same (.obj a.headers) (.obj b.headers) &&
    Json.same a.body b.body && a.redirect == b.redirect

/-- A response as a record of a document. -/
def kind : Json.RecordKind Response where
  name := "Response"
  fields := ["status", "headers", "body", "redirect"]
  set r name v :=
    match name with
    | "status" => (fun x => { r with status := x }) <$> v.natural greatestStatus "u16"
    | "headers" => (fun x => { r with headers := Named.putAll [] x }) <$> v.map Json.Draft.any
    | "body" => (fun x => { r with body := x }) <$> v.any
    | _ => (fun x => { r with redirect := x }) <$> v.optional (Json.Draft.text "a string")

/-- The response a text stands for. -/
def ofText (text : String) : Json.Decoded Response := kind.readText {} text

end Response

end RuleService
