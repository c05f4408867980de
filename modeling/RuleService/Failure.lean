namespace RuleService

inductive Failure where
  /-- A snippet failed; the message is that of the engine or of the commit after it. -/
  | evaluation (code message : String)
  /-- The body of a template command has not the form the command wants. -/
  | malformed (command message : String)
  | fileNotFound (path : String)
  | unreadable (path message : String)
  /-- No rule of the route applies. -/
  | unresolved (method path : String)
  deriving DecidableEq, Repr, Inhabited

namespace Failure

def message : Failure → String
  | evaluation code message => "evaluation failed for `" ++ code ++ "`: " ++ message
  | malformed command message => "malformed " ++ command ++ " descriptor: " ++ message
  | fileNotFound path => "file not found: " ++ path
  | unreadable path message => "failed to read " ++ path ++ ": " ++ message
  | unresolved method path => "no rule matched " ++ method ++ " " ++ path

/-- Failures that are answered as not found. -/
def isNotFound : Failure → Bool
  | fileNotFound _ | unresolved .. => true
  | _ => false

end Failure

end RuleService
