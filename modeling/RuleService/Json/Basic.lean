import RuleService.Double.Basic
import RuleService.Named

namespace RuleService

/-- A JSON value. Whole numbers within the 64-bit ranges are `int`, all others `float`. -/
inductive Json where
  | null
  | bool (b : Bool)
  | int (n : Int)
  | float (d : Double)
  | str (s : String)
  | arr (items : List Json)
  | obj (fields : List (String × Json))
  deriving Repr, Inhabited

/-- The fields of an object, in the order of their first insertion. -/
abbrev Fields := Named Json

namespace Json

/-- A number as binary64, rounded to nearest; none for other values. -/
def toDouble? : Json → Option Double
  | .int n => some (Double.ofInt n)
  | .float d => some d
  | _ => none

/-- A binary64 number as a value; NaN and the infinities have none and give null. -/
def ofDouble (d : Double) : Json := if d.isFinite then .float d else .null

def fields? : Json → Option Fields
  | .obj fields => some fields
  | _ => none

def str? : Json → Option String
  | .str s => some s
  | _ => none

def isNull : Json → Bool
  | .null => true
  | _ => false

mutual

/-- Equality of values: the order of keys and the sign of a zero do not matter. -/
def same : Json → Json → Bool
  | .null, .null => true
  | .bool a, .bool b => a == b
  | .int a, .int b => a == b
  | .float a, .float b => a.equals b
  | .str a, .str b => a == b
  | .arr as, .arr bs => sameItems as bs
  | .obj as, .obj bs => as.length == bs.length && sameFields as bs
  | _, _ => false

def sameItems : List Json → List Json → Bool
  | [], [] => true
  | a :: as, b :: bs => same a b && sameItems as bs
  | _, _ => false

/-- Whether each field has an equal one among `bs`. -/
def sameFields : List (String × Json) → Fields → Bool
  | [], _ => true
  | (k, a) :: rest, bs =>
    (match Named.get? bs k with
      | some b => same a b
      | none => false) && sameFields rest bs

end

end Json

end RuleService
