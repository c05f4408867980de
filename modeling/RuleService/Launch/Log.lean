namespace RuleService

inductive LogLevel where
  | info | warn | error
  deriving DecidableEq, Repr

def LogLevel.name : LogLevel → String
  | info => "INFO"
  | warn => "WARN"
  | error => "ERROR"

/-- A message with named values. -/
structure LogEntry where
  level : LogLevel
  message : String
  fields : List (String × String) := []
  deriving DecidableEq, Repr

def LogEntry.line (e : LogEntry) : String :=
  " ".intercalate (e.level.name :: e.message :: e.fields.map fun (name, value) => name ++ "=" ++ value)

end RuleService
