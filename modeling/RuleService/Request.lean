import RuleService.Json.Record

namespace RuleService

/-- Texts by name. -/
abbrev Texts := Named String

def Texts.toJson (texts : Texts) : Json := .obj (texts.map fun (k, v) => (k, .str v))

structure Request where
  method : String := ""
  url : String := ""
  path : String := ""
  ip : String := ""
  params : Texts := []
  query : Texts := []
  headers : Texts := []
  body : Json := .null
  deriving Inhabited

namespace Request

/-- The value that `request` stands for in a snippet. -/
def toJson (r : Request) : Json :=
  .obj
    [("method", .str r.method), ("url", .str r.url), ("path", .str r.path), ("ip", .str r.ip),
      ("params", r.params.toJson), ("query", r.query.toJson), ("headers", r.headers.toJson),
      ("body", r.body)]

/-- A request as a record of a document. -/
def kind : Json.RecordKind Request where
  name := "Request"
  fields := ["method", "url", "path", "ip", "params", "query", "headers", "body"]
  set r name v :=
    let texts := (Named.ofList <$> ·.map (Json.Draft.text "a string"))
    match name with
    | "method" => (fun x => { r with method := x }) <$> v.text "a string"
    | "url" => (fun x => { r with url := x }) <$> v.text "a string"
    | "path" => (fun x => { r with path := x }) <$> v.text "a string"
    | "ip" => (fun x => { r with ip := x }) <$> v.text "a string"
    | "params" => (fun x => { r with params := x }) <$> texts v
    | "query" => (fun x => { r with query := x }) <$> texts v
    | "headers" => (fun x => { r with headers := x }) <$> texts v
    | _ => (fun x => { r with body := x }) <$> v.any

/-- The request a text stands for. -/
def ofText (text : String) : Json.Decoded Request := kind.readText {} text

end Request

end RuleService
