import RuleService.Evaluation

namespace RuleService

/-- One statement or a list of statements. Items that are not strings are kept, and do nothing. -/
structure Script where
  items : List Json
  deriving Inhabited

namespace Script

/-- The script of one statement. -/
def statement (code : String) : Script := ⟨[.str code]⟩

/-- The script a value stands for. -/
def ofJson? : Json → Option Script
  | .str code => some (statement code)
  | .arr items => some ⟨items⟩
  | _ => none

/-- The statements that run. -/
def statements (script : Script) : List String := script.items.filterMap Json.str?

/-- Runs the statements up to the first that fails. -/
def execute (engine : Engine) (ctx : Context) (script : Script) : Effect Unit :=
  script.statements.forM (RuleService.execute engine ctx)

end Script

end RuleService
