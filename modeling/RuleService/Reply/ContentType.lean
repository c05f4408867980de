namespace RuleService.ContentType

def html : String := "text/html; charset=utf-8"

def json : String := "application/json; charset=utf-8"

/-- The type of files with an extension in lower case. -/
def ofExtension : String → String
  | "html" | "htm" => html
  | "json" => json
  | "css" => "text/css; charset=utf-8"
  | "js" | "mjs" => "application/javascript; charset=utf-8"
  | "txt" | "csv" => "text/plain; charset=utf-8"
  | "xml" => "application/xml; charset=utf-8"
  | "svg" => "image/svg+xml"
  | _ => "application/octet-stream"

end RuleService.ContentType
