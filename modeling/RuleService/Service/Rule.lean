import RuleService.Template.Expansion

namespace RuleService

/-- Why a value is no rule. -/
inductive RuleFault where
  | notAnObject
  /-- A field that should hold statements holds something else. -/
  | badScript (field : String)
  deriving DecidableEq, Repr

def RuleFault.message : RuleFault → String
  | notAnObject => "a rule must be a JSON object"
  | badScript field => "\x60" ++ field ++ "\x60 must be a statement or a list of statements"

structure Rule where
  /-- All fields, as they were given. -/
  definition : Fields
  /-- The expression that decides whether the rule applies; without it the rule always does. -/
  condition : Option String
  /-- What runs before the rule is expanded. -/
  before : Option Script
  /-- What runs after the response is made. -/
  after : Option Script
  deriving Inhabited

namespace Rule

/-- The fields that hold code and no template. -/
def codeFields : List String := ["condition", "preScript", "postScript"]

def conditionOf : Option Json → Option String
  | none | some .null => none
  | some (.str code) => some code
  | some v => some v.render

def scriptOf (fields : Fields) (name : String) : Except RuleFault (Option Script) :=
  match Named.get? fields name with
  | none | some .null => .ok none
  | some v =>
    match Script.ofJson? v with
    | some script => .ok (some script)
    | none => .error (.badScript name)

/-- The rule a value stands for. -/
def ofJson : Json → Except RuleFault Rule
  | .obj definition => do
    let before ← scriptOf definition "preScript"
    let after ← scriptOf definition "postScript"
    pure { definition, condition := conditionOf (Named.get? definition "condition"), before, after }
  | _ => .error .notAnObject

/-- The rule without its code: what is expanded. -/
def template (rule : Rule) : Json :=
  .obj (rule.definition.filter fun (key, _) => !codeFields.contains key)

def applies (engine : Engine) (ctx : Context) (rule : Rule) : Effect Bool :=
  match rule.condition with
  | none => pure true
  | some code => Json.isTruthy <$> evaluate engine ctx code

/-- The first rule that applies, with its place among the rules. Later conditions are not looked
at. -/
def resolve (engine : Engine) (ctx : Context) (place : Nat) :
    List Rule → Effect (Option (Nat × Rule))
  | [] => pure none
  | rule :: rest => do
    if ← rule.applies engine ctx then pure (some (place, rule))
    else resolve engine ctx (place + 1) rest

end Rule

end RuleService
