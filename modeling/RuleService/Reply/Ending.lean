import RuleService.Json.Printer
import RuleService.Double.Numeral
import RuleService.Text.Blank

namespace RuleService

/-- How a rule makes the response. -/
inductive Ending where
  /-- With the text of a file. -/
  | file (path : String)
  | redirect (target : String)
  /-- With a bare status. -/
  | status (code : Nat)
  | text (body : String)
  /-- The rule does not say. -/
  | missing
  deriving DecidableEq, Repr, Inhabited

namespace Ending

/-- The whole numbers from 100 to 999 are status codes; everything else stands for 500. -/
def statusOf (v : Json) : Nat :=
  let number := match v with
    | .str s => Double.parse? (Text.trim s)
    | v => v.toDouble?
  match number.bind fun d => if d.isWhole then d.truncate? else none with
  | some n => if 100 ≤ n ∧ n ≤ 999 then n.toNat else 500
  | none => 500

/-- A field that is there and not null. -/
def field? (fields : Fields) (name : String) : Option Json :=
  (Named.get? fields name).filter (!·.isNull)

/-- The ending of an expanded rule: the first there is of `response`, `redirect`, `errorResponse` and
`responseText`. -/
def ofFields (fields : Fields) : Ending :=
  match field? fields "response" with
  | some path => file path.display
  | none =>
    match field? fields "redirect" with
    | some target => redirect (if target.display.isEmpty then "/" else target.display)
    | none =>
      match field? fields "errorResponse" with
      | some code => status (statusOf code)
      | none =>
        match field? fields "responseText" with
        | some body => text body.display
        | none => missing

end Ending

/-- An expanded rule. -/
structure Recipe where
  headers : Fields := []
  ending : Ending := .missing
  deriving Inhabited

namespace Recipe

/-- The recipe in the value of a rule. -/
def ofJson : Json → Recipe
  | .obj fields =>
    { headers := match Named.get? fields "headers" with
        | some (.obj headers) => headers
        | _ => [],
      ending := .ofFields fields }
  | _ => {}

end Recipe

end RuleService
