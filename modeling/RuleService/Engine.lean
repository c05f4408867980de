import RuleService.Json.Basic

namespace RuleService

/-- The variables a snippet starts with, in the order of their declaration. -/
abbrev Bindings := List (String × Json)

/-- A value of an engine as JSON; none if it has no JSON form. -/
abbrev Held := Option Json

/-- How a run ended. -/
structure Finish where
  /-- The value of the snippet, or the engine's account of what went wrong. -/
  outcome : Except String Held
  /-- What a name is bound to at the end, by its latest declaration. -/
  binding : String → Option Held
  /-- The texts printed, in order. -/
  printed : List String := []

/-- An engine. An expression has a value; a script is run for what it does. -/
structure Engine where
  expression : String → Bindings → Finish
  script : String → Bindings → Finish

end RuleService
