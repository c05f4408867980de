import RuleService.Double.Basic

namespace RuleService.Double

/-- A positive decimal: `digits * 10 ^ exponent`. -/
structure Decimal where
  digits : Nat
  exponent : Int
  deriving DecidableEq, Repr, Inhabited

/-- The exponent of the leading decimal digit of `num / den`, counting from 0 for units. -/
def decimalExponent (num den : Nat) : Int :=
  let estimate : Int := (((num.log2 : Int) - den.log2) * 30103) / 100000
  let reaches (k : Int) : Bool :=
    if 0 ≤ k then den * Nat.pow 10 k.toNat ≤ num else den ≤ num * Nat.pow 10 (-k).toNat
  if reaches (estimate + 1) then estimate + 1
  else if reaches estimate then estimate
  else estimate - 1

/-- Drops the zeros at the end of the digits. The first argument bounds their number. -/
def dropZeros : Nat → Nat → Int → Decimal
  | 0, d, k => ⟨d, k⟩
  | n + 1, d, k => if d ≠ 0 ∧ d % 10 = 0 then dropZeros n (d / 10) (k + 1) else ⟨d, k⟩

/-- The reals that round to a number, as quarters of its unit over a common denominator. -/
structure Interval where
  low : Nat
  value : Nat
  high : Nat
  den : Nat
  closed : Bool

/-- The rounding interval of `m * 2 ^ e`: half a unit to each side, but a quarter below a power of
two, and with its ends exactly when the significand is even. -/
def interval (m : Nat) (e : Int) : Interval :=
  let below := if m = Nat.pow 2 52 ∧ leastExponent < e then 1 else 2
  let scale := Nat.pow 2 (e - 2).toNat
  { low := (4 * m - below) * scale, value := 4 * m * scale, high := (4 * m + 2) * scale,
    den := Nat.pow 2 (2 - e).toNat, closed := m % 2 == 0 }

/-- Whether `c * 10 ^ k` lies in the interval. -/
def Interval.holds (i : Interval) (c : Nat) (k : Int) : Bool :=
  let up := Nat.pow 10 k.toNat
  let down := Nat.pow 10 (-k).toNat
  let x := c * up * i.den
  if i.closed then i.low * down ≤ x && x ≤ i.high * down
  else i.low * down < x && x < i.high * down

/-- The neighbour of the value on the grid of `10 ^ k` that lies in the interval and is nearest. -/
def Interval.onGrid? (i : Interval) (k : Int) : Option Nat :=
  let num := i.value * Nat.pow 10 (-k).toNat
  let den := i.den * Nat.pow 10 k.toNat
  let c := num / den
  let nearer := nearestQuotient num den
  if i.holds nearer k then some nearer
  else if i.holds c k then some c
  else if i.holds (c + 1) k then some (c + 1)
  else none

/-- Searches the grids from `n` places upward; `left` grids remain. -/
def Interval.search (i : Interval) (top : Int) : Nat → Nat → Decimal
  | 0, n =>
    let k := top - n + 1
    dropZeros 20 (nearestQuotient (i.value * Nat.pow 10 (-k).toNat) (i.den * Nat.pow 10 k.toNat)) k
  | left + 1, n =>
    let k := top - n + 1
    match i.onGrid? k with
    | some c => dropZeros 20 c k
    | none => Interval.search i top left (n + 1)

/-- The shortest decimal that rounds to `m * 2 ^ e`, for a significand other than 0. For one digit, two
digits and so on the two neighbours on that decimal grid are tested, and of two hits the nearer one wins. -/
def shortest (m : Nat) (e : Int) : Decimal :=
  let i := interval m e
  i.search (decimalExponent i.value i.den) 16 1

/-- The digits of a natural number. -/
def digitsOf (n : Nat) : List Char := Nat.toDigits 10 n

/-- How a format writes numbers. -/
structure Layout where
  /-- Leading digits at or above this power of ten, or below `low`, are written with an exponent. -/
  scientific : Option (Int × Int)
  /-- Whether a whole number keeps `.0`. -/
  keepPoint : Bool
  /-- What stands before a positive exponent. -/
  plus : String
  nan : String
  infinity : String

/-- `digits` with the point placed so that the value is `digits * 10 ^ exponent`. -/
def positional (d : Decimal) (keepPoint : Bool) : List Char :=
  let ds := digitsOf d.digits
  if 0 ≤ d.exponent then
    ds ++ List.replicate d.exponent.toNat '0' ++ (if keepPoint then ['.', '0'] else [])
  else
    let places := (-d.exponent).toNat
    if places < ds.length then
      ds.take (ds.length - places) ++ '.' :: ds.drop (ds.length - places)
    else '0' :: '.' :: (List.replicate (places - ds.length) '0' ++ ds)

/-- One digit, the point, the other digits, and the exponent. -/
def withExponent (d : Decimal) (plus : String) : List Char :=
  let ds := digitsOf d.digits
  let k : Int := d.exponent + ds.length - 1
  let exponent := if k < 0 then '-' :: digitsOf k.natAbs else plus.toList ++ digitsOf k.natAbs
  let mantissa := match ds with
    | [] => ['0']
    | [c] => [c]
    | c :: rest => c :: '.' :: rest
  mantissa ++ 'e' :: exponent

def Layout.magnitude (l : Layout) (m : Nat) (e : Int) : List Char :=
  if m = 0 then (if l.keepPoint then ['0', '.', '0'] else ['0'])
  else
    let d := shortest m e
    let top : Int := d.exponent + (digitsOf d.digits).length - 1
    match l.scientific with
    | some (low, high) =>
      if low ≤ top ∧ top < high then positional d l.keepPoint else withExponent d l.plus
    | none => positional d l.keepPoint

/-- The text of a number in a format. -/
def Layout.render (l : Layout) : Double → String
  | .nan => l.nan
  | .infinite s => (if s then "-" else "") ++ l.infinity
  | .finite s m e => String.ofList ((if s then ['-'] else []) ++ l.magnitude m e)

end RuleService.Double
