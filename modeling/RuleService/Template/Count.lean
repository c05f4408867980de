import RuleService.Placeholder
import RuleService.Double.Numeral
import RuleService.Text.Blank
import RuleService.Text.Quoted

namespace RuleService

/-- A count as a template gives it. -/
inductive Count where
  | known (v : Json)
  | text (pieces : List Piece)
  | expression (code : String)
  deriving Inhabited

namespace Count

/-- The greatest count that is carried out. -/
def limit : Nat := 100000

/-- Greater counts are told as this one. -/
def greatest : Nat := Nat.pow 2 64 - 1

/-- A string is a text if it has a placeholder, a number if it reads as one, and else code. -/
def ofJson : Json → Count
  | .str s =>
    if hasPlaceholder s then .text (Piece.ofText s)
    else match Double.parse? (Text.trim s) with
      | some d => .known (Json.ofDouble d)
      | none => .expression s
  | v => .known v

def fail (message : String) : Failure := .malformed "$array" message

/-- A number rounded up; nothing below zero. -/
def ofDouble (d : Double) : Nat :=
  match d.ceil? with
  | some n => min n.toNat greatest
  | none => if d.isNaN || d.isNegative then 0 else greatest

/-- The count a value stands for. -/
def size (v : Json) : Except Failure Nat :=
  match v with
  | .null => .ok 0
  | .bool b => .ok b.toNat
  | .int n => .ok (ofDouble (Double.ofInt n))
  | .float d => .ok (ofDouble d)
  | .str s =>
    match Double.parse? (Text.trim s) with
    | some d => .ok (ofDouble d)
    | none => .error (fail ("\x60count\x60 is not a number: " ++ Text.quoted s))
  | v => .error (fail ("\x60count\x60 is not a number: " ++ v.render))

/-- Refuses a count above the limit. -/
def check (n : Nat) : Except Failure Nat :=
  if limit < n then
    .error (fail ("\x60count\x60 " ++ toString n ++ " exceeds the limit of " ++ toString limit))
  else .ok n

/-- The value of a count, evaluated if it is code. -/
def value (engine : Engine) (ctx : Context) : Count → Effect Json
  | known v => pure v
  | text pieces => expandPieces engine ctx pieces
  | expression code => evaluate engine ctx code

/-- The number of elements a count asks for. -/
def resolve (engine : Engine) (ctx : Context) (count : Count) : Effect Nat := do
  let v ← count.value engine ctx
  liftExcept (size v >>= check)

end Count

end RuleService
