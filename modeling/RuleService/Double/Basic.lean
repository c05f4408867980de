namespace RuleService

/-- A binary64 number. A finite one is kept as sign, significand and exponent, in the form that `ofRatio`
gives: a significand below 2^53 that is at least 2^52 unless the exponent is the least one. -/
inductive Double where
  | nan
  | infinite (negative : Bool)
  | finite (negative : Bool) (significand : Nat) (exponent : Int)
  deriving DecidableEq, Repr, Inhabited

namespace Double

/-- The least exponent; the unit of the subnormal numbers is 2 to it. -/
def leastExponent : Int := -1074

/-- The greatest exponent of a finite number. -/
def greatestExponent : Int := 971

def zero (negative : Bool) : Double := .finite negative 0 leastExponent

/-- Rounds a quotient to the nearest natural number, a half to the even neighbour. -/
def nearestQuotient (num den : Nat) : Nat :=
  let q := num / den
  let r := num % den
  if den < 2 * r || (2 * r == den && q % 2 == 1) then q + 1 else q

/-- Numerator and denominator of `num / den / 2 ^ e`. -/
def scaled (num den : Nat) (e : Int) : Nat × Nat :=
  if 0 ≤ e then (num, den * Nat.pow 2 e.toNat) else (num * Nat.pow 2 (-e).toNat, den)

/-- The exponent at which `num / den` has 53 bits before the point, or the least exponent. -/
def exponentFor (num den : Nat) : Int :=
  let e := max ((num.log2 : Int) - den.log2 - 53) leastExponent
  let (n, d) := scaled num den e
  if d * Nat.pow 2 53 ≤ n then e + 1 else e

/-- Gives a rounded significand its normal form; one beyond the greatest exponent is infinite. -/
def pack (negative : Bool) (significand : Nat) (e : Int) : Double :=
  let (m, e) := if significand = Nat.pow 2 53 then (Nat.pow 2 52, e + 1) else (significand, e)
  if greatestExponent < e then .infinite negative else .finite negative m e

/-- The nearest number to `num / den`, a tie going to the even significand. -/
def ofRatio (negative : Bool) (num den : Nat) : Double :=
  if num = 0 then zero negative
  else
    let e := exponentFor num den
    let (n, d) := scaled num den e
    pack negative (nearestQuotient n d) e

/-- The nearest number to `m * 2 ^ e`. -/
def ofScaled (negative : Bool) (m : Nat) (e : Int) : Double :=
  if 0 ≤ e then ofRatio negative (m * Nat.pow 2 e.toNat) 1
  else ofRatio negative m (Nat.pow 2 (-e).toNat)

def ofInt (n : Int) : Double := ofRatio (n < 0) n.natAbs 1

def isNaN : Double → Bool
  | nan => true
  | _ => false

def isFinite : Double → Bool
  | finite .. => true
  | _ => false

def isNegative : Double → Bool
  | nan => false
  | infinite s => s
  | finite s _ _ => s

def neg : Double → Double
  | nan => nan
  | infinite s => infinite (!s)
  | finite s m e => finite (!s) m e

def abs : Double → Double
  | nan => nan
  | infinite _ => infinite false
  | finite _ m e => finite false m e

/-- A finite number as an integer times two to the power of an exponent not above `floor`. -/
def units (m : Nat) (e floor : Int) : Nat := m * Nat.pow 2 (e - floor).toNat

/-- The order of two finite numbers, the zeros being equal. -/
def compareFinite (s₁ : Bool) (m₁ : Nat) (e₁ : Int) (s₂ : Bool) (m₂ : Nat) (e₂ : Int) : Ordering :=
  let floor := min e₁ e₂
  let a : Int := units m₁ e₁ floor
  let b : Int := units m₂ e₂ floor
  compare (if s₁ then -a else a) (if s₂ then -b else b)

/-- The order of numbers; none with NaN. -/
def compare? : Double → Double → Option Ordering
  | nan, _ => none
  | _, nan => none
  | infinite s₁, infinite s₂ =>
    some (if s₁ == s₂ then .eq else if s₁ then .lt else .gt)
  | infinite s, finite .. => some (if s then .lt else .gt)
  | finite .., infinite s => some (if s then .gt else .lt)
  | finite s₁ m₁ e₁, finite s₂ m₂ e₂ => some (compareFinite s₁ m₁ e₁ s₂ m₂ e₂)

/-- Numeric equality: the two zeros are equal and NaN equals nothing. -/
def equals (a b : Double) : Bool := compare? a b == some .eq

def lessThan (a b : Double) : Bool := compare? a b == some .lt

def atMost (a b : Double) : Bool := lessThan a b || equals a b

def isZero : Double → Bool
  | finite _ 0 _ => true
  | _ => false

/-- Whole part and whether a fraction was cut off, for a magnitude `m * 2 ^ e`. -/
def splitMagnitude (m : Nat) (e : Int) : Nat × Bool :=
  if 0 ≤ e then (m * Nat.pow 2 e.toNat, false)
  else
    let d := Nat.pow 2 (-e).toNat
    (m / d, m % d != 0)

/-- Whether the number is a whole one. -/
def isWhole : Double → Bool
  | finite _ m e => !(splitMagnitude m e).2
  | _ => false

/-- The whole part, rounded toward zero; none for NaN and the infinities. -/
def truncate? : Double → Option Int
  | finite s m e =>
    let w : Int := (splitMagnitude m e).1
    some (if s then -w else w)
  | _ => none

/-- The greatest integer not above the number. -/
def floor? : Double → Option Int
  | finite s m e =>
    let (w, cut) := splitMagnitude m e
    some (if s then (if cut then -(w : Int) - 1 else -(w : Int)) else w)
  | _ => none

/-- The least integer not below the number. -/
def ceil? : Double → Option Int
  | finite s m e =>
    let (w, cut) := splitMagnitude m e
    some (if s then -(w : Int) else if cut then (w : Int) + 1 else w)
  | _ => none

/-- The nearest integer, a half going away from zero. -/
def round? : Double → Option Int
  | finite s m e =>
    let (w, _) := splitMagnitude (2 * m) e
    let r : Int := ((w + 1) / 2 : Nat)
    some (if s then -r else r)
  | _ => none

/-- Replaces a finite number by an integer made from it, keeping the sign of a zero. -/
def withWhole (part : Double → Option Int) (d : Double) : Double :=
  match part d with
  | none => d
  | some n => if n = 0 then zero d.isNegative else ofInt n

end Double

end RuleService
