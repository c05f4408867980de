import RuleService.Snippet.Machine

namespace RuleService.Snippet.Helpers

def numbers : String := "0123456789"

def capitals : String := "ABCDEFGHIJKLMNOPQRSTUVWXYZ"

def lowercases : String := "abcdefghijklmnopqrstuvwxyz"

def constants : List (String × Value) :=
  [("CC_NUMBERS", .str numbers), ("CC_CAPITALS", .str capitals),
    ("CC_LOWERCASES", .str lowercases), ("CC_ALPHANUM", .str (numbers ++ capitals)),
    ("CC_LOWER_ALPHANUM", .str (numbers ++ lowercases)),
    ("CC_MIX_ALPHANUM", .str (numbers ++ lowercases ++ capitals))]

def draw (n : Nat) : Run Nat := modifyGet fun m => m.draw n

/-- A text of characters drawn from a class. -/
def randomDigits (len : Int) (characters : String) : Run Value := do
  let cs := characters.toList
  let n := if cs.isEmpty then 0 else len.toNat
  let picked ← (List.range n).mapM fun _ => do
    return cs.getD (← draw cs.length) '0'
  return .str (String.ofList picked)

/-- A number between two bounds, both included, in either order. -/
def randomNumber (a b : Int) : Run Value := do
  let low := min a b
  let high := max a b
  return .int (low + (← draw (high - low + 1).toNat))

/-- What an entry weighs; what is no number, or below zero, weighs nothing. -/
def weight : Value → Double
  | .int n => Double.ofInt (max n 0)
  | .float d => if (Double.zero false).lessThan d then d else Double.zero false
  | _ => Double.zero false

/-- The first key at which the weights so far exceed the target. -/
def keyAt (target sum : Double) : Value.Entries → Option String
  | [] => none
  | (k, v) :: rest =>
    let sum := sum.add (weight v)
    if target.lessThan sum then some k else keyAt target sum rest

def weightedChoice (entries : Value.Entries) : Run Value := do
  let total := entries.foldl (fun sum e => sum.add (weight e.2)) (Double.zero false)
  if total.atMost (Double.zero false) then return .unit
  let share := Double.ofRatio false (← draw (Nat.pow 2 30)) (Nat.pow 2 30)
  match keyAt (share.mul total) (Double.zero false) entries with
  | some k => return .str k
  | none => return ((entries.getLast?).elim .unit fun e => .str e.1)

/-- The functions of the module. -/
def call? (name : String) (args : List Value) : Option (Run Value) :=
  match name, args with
  | "random_choice", [.array xs] => some do
    if xs.isEmpty then return .unit
    return xs.getD (← draw xs.length) .unit
  | "weighted_random_choice", [.map entries] => some (weightedChoice entries)
  | "random_digits", [] => some (randomDigits 8 numbers)
  | "random_digits", [.int n] => some (randomDigits n numbers)
  | "random_digits", [.int n, .str s] => some (randomDigits n s)
  | "random_number", [] => some (randomNumber 100 0)
  | "random_number", [.int high] => some (randomNumber high 0)
  | "random_number", [.int high, .int low] => some (randomNumber high low)
  | "condition", [.bool flag, yes, no] => some (pure (if flag then yes else no))
  | _, _ => none

end RuleService.Snippet.Helpers
