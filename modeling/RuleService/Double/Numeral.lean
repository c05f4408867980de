import RuleService.Double.Basic
import RuleService.Double.Arithmetic
import RuleService.Text.Blank

namespace RuleService.Double

/-- The number of decimal digits of a natural number, none for 0. -/
def digitCount (n : Nat) : Nat := if n = 0 then 0 else (Nat.toDigits 10 n).length

/-- The nearest number to `digits * 10 ^ e`. Decimals beyond every finite number, or below half the
least one, are settled by their leading digit alone. -/
def ofDecimal (negative : Bool) (digits : Nat) (e : Int) : Double :=
  if digits = 0 then zero negative
  else
    let top := e + digitCount digits
    if 310 < top then infinite negative
    else if top < -330 then zero negative
    else if 0 ≤ e then ofRatio negative (digits * Nat.pow 10 e.toNat) 1
    else ofRatio negative digits (Nat.pow 10 (-e).toNat)

def isDigit (c : Char) : Bool := '0' ≤ c && c ≤ '9'

/-- The number written by decimal digits. -/
def natOfDigits (cs : List Char) : Nat :=
  cs.foldl (fun n c => n * 10 + (c.toNat - '0'.toNat)) 0

/-- An optional sign: whether it is a minus, and what follows. -/
def takeSign : List Char → Bool × List Char
  | '-' :: cs => (true, cs)
  | '+' :: cs => (false, cs)
  | cs => (false, cs)

/-- An exponent part that runs to the end: `e` or `E`, an optional sign, and digits. -/
def exponentPart? : List Char → Option Int
  | [] => some 0
  | c :: cs =>
    if c == 'e' || c == 'E' then
      let (negative, ds) := takeSign cs
      if !ds.isEmpty && ds.all isDigit then
        let n : Int := natOfDigits ds
        some (if negative then -n else n)
      else none
    else none

/-- A numeral: an optional sign, digits with at most one point and at least one digit, and an
optional exponent; or, in any case, `inf`, `infinity` or `nan`. -/
def parseChars? (cs : List Char) : Option Double :=
  let (negative, body) := takeSign cs
  let word := String.ofList (body.map Char.toLower)
  if word == "inf" || word == "infinity" then some (infinite negative)
  else if word == "nan" then some nan
  else
    let whole := body.takeWhile isDigit
    let rest := body.dropWhile isDigit
    let (fraction, rest) := match rest with
      | '.' :: cs => (cs.takeWhile isDigit, cs.dropWhile isDigit)
      | cs => ([], cs)
    if whole.isEmpty && fraction.isEmpty then none
    else (exponentPart? rest).map fun e =>
      ofDecimal negative (natOfDigits (whole ++ fraction)) (e - fraction.length)

def parse? (s : String) : Option Double := parseChars? s.toList

/-- The nearest number to a power of ten. -/
def powerOfTen (n : Nat) : Double := ofDecimal false 1 n

/-- Divides by ten to the power `n`, in steps of 308 places; `steps` bounds the number of steps. -/
def divideByTens : Nat → Double → Nat → Double
  | 0, d, _ => d
  | steps + 1, d, n =>
    if n ≤ 308 then d.div (powerOfTen n)
    else if d.isZero then d
    else divideByTens steps (d.div (powerOfTen 308)) (n - 308)

/-- `significand * 10 ^ e`, rounding the significand, the power of ten and the scaling in turn, which may
miss the nearest number by a unit. None when the result would be infinite. -/
def quick? (negative : Bool) (significand : Nat) (e : Int) : Option Double :=
  let f := ofInt significand
  let scaled :=
    if 0 ≤ e then
      if e ≤ 308 then f.mul (powerOfTen e.toNat) else if f.isZero then f else infinite false
    else divideByTens 8 f (-e).toNat
  if scaled.isFinite then some (if negative then scaled.neg else scaled) else none

end RuleService.Double
