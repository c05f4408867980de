import RuleService.Snippet.Functions.Reply

namespace RuleService.Snippet

namespace Functions

/-- The digits of a word in a base that is a power of two. -/
def inBase (base : Nat) (n : Int) : Value :=
  .str (String.ofList (Nat.toDigits base (Operators.word n)))

/-- A digit in a base up to 36. -/
def radixDigit? (radix : Nat) (c : Char) : Option Nat :=
  let v :=
    if c.isDigit then some (c.toNat - '0'.toNat)
    else if 'a' ≤ c && c ≤ 'z' then some (c.toNat - 'a'.toNat + 10)
    else if 'A' ≤ c && c ≤ 'Z' then some (c.toNat - 'A'.toNat + 10)
    else none
  v.filter (· < radix)

/-- An integer numeral: an optional sign and digits. -/
def parseInt (text : String) (radix : Int) : Except Fault Reply :=
  if radix < 2 || 36 < radix then .error (.arithmetic (.badRadix radix))
  else
    let trimmed := Text.trimBlanks text.toList
    let (negative, digits) := Double.takeSign trimmed
    let fail (reason : String) : Except Fault Reply :=
      .error (.arithmetic (.notAnInteger text reason))
    if trimmed.isEmpty then fail "cannot parse integer from empty string"
    else if digits.isEmpty then fail "invalid digit found in string"
    else
      match digits.mapM (radixDigit? radix.toNat) with
      | none => fail "invalid digit found in string"
      | some ds =>
        let magnitude : Nat := ds.foldl (fun n d => n * radix.toNat + d) 0
        let n : Int := if negative then -(magnitude : Int) else magnitude
        if Value.isInt n then .ok { value := .int n }
        else if negative then fail "number too small to fit in target type"
        else fail "number too large to fit in target type"

def parseFloat (text : String) : Except Fault Reply :=
  match Double.parseChars? (Text.trimBlanks text.toList) with
  | some d => .ok { value := .float d }
  | none => .error (.arithmetic (.notANumber text))

/-- The integer part of a float, if it is an integer of the language. -/
def toInt (d : Double) : Except Fault Reply :=
  match d.truncate? with
  | some n =>
    if Value.isInt n then .ok { value := .int n }
    else .error (.arithmetic (.conversion (.float d)))
  | none => .error (.arithmetic (.conversion (.float d)))

/-- The sign of a number as an integer. -/
def signOf (d : Double) : Int := if d.isZero || d.isNaN then 0 else if d.isNegative then -1 else 1

/-- The square root to the nearest number. -/
def squareRoot (d : Double) : Double :=
  match d with
  | .finite s m e =>
    if m == 0 then d
    else if s then .nan
    else
      /- The significand scaled to an even exponent and at least 128 bits, so that the integer root
      has bits enough to be rounded; an inexact root keeps a trailing one. -/
      let up := 128 + (e - 128) % 2
      let n := m * Nat.pow 2 up.toNat
      let r := root n
      let sticky := if r * r == n then 2 * r else 2 * r + 1
      Double.ofScaled false sticky ((e - up) / 2 - 1)
  | .infinite true => .nan
  | d => d
where
  /-- The integer square root. -/
  root (n : Nat) : Nat := go (n.log2 + 2) n (Nat.pow 2 (n.log2 / 2 + 1))
  /-- Newton's steps from above; the first argument bounds their number. -/
  go : Nat → Nat → Nat → Nat
    | 0, _, x => x
    | fuel + 1, n, x =>
      let y := (x + n / x) / 2
      if y < x then go fuel n y else x

def smaller (a b : Double) : Double := if b.lessThan a || a.isNaN then b else a

def larger (a b : Double) : Double := if a.lessThan b || a.isNaN then b else a

/-- Functions whose first argument is a number. -/
def numbers? (name : String) (args : List Value) : Answer :=
  match name, args with
  | "abs", [.int n] =>
    if n == Value.leastInt then Reply.fail (.arithmetic (.absolute (.int n)))
    else Reply.give (.int n.natAbs)
  | "abs", [.float d] => Reply.give (.float d.abs)
  | "sign", [.int n] => Reply.give (.int n.sign)
  | "sign", [.float d] => Reply.give (.int (signOf d))
  | "is_zero", [.int n] => Reply.give (.bool (n == 0))
  | "is_zero", [.float d] => Reply.give (.bool d.isZero)
  | "is_odd", [.int n] => Reply.give (.bool (n % 2 == 1))
  | "is_even", [.int n] => Reply.give (.bool (n % 2 == 0))
  | "is_nan", [.float d] => Reply.give (.bool d.isNaN)
  | "is_finite", [.float d] => Reply.give (.bool d.isFinite)
  | "is_infinite", [.float d] => Reply.give (.bool (!d.isFinite && !d.isNaN))
  | "floor", [.float d] => Reply.give (.float (d.withWhole Double.floor?))
  | "ceiling", [.float d] => Reply.give (.float (d.withWhole Double.ceil?))
  | "round", [.float d] => Reply.give (.float (d.withWhole Double.round?))
  | "int", [.float d] => Reply.give (.float (d.withWhole Double.truncate?))
  | "fraction", [.float d] =>
    Reply.give (.float (d.sub (d.withWhole Double.truncate?)))
  | "sqrt", [.float d] => Reply.give (.float (squareRoot d))
  | "to_int", [.int n] => Reply.give (.int n)
  | "to_int", [.float d] => some (toInt d)
  | "to_float", [.int n] => Reply.give (.float (Double.ofInt n))
  | "to_float", [.float d] => Reply.give (.float d)
  | "to_hex", [.int n] => Reply.give (inBase 16 n)
  | "to_octal", [.int n] => Reply.give (inBase 8 n)
  | "to_binary", [.int n] => Reply.give (inBase 2 n)
  | "parse_int", [.str s] => some (parseInt s 10)
  | "parse_int", [.str s, .int radix] => some (parseInt s radix)
  | "parse_float", [.str s] => some (parseFloat s)
  | "min", [.int a, .int b] => Reply.give (.int (min a b))
  | "max", [.int a, .int b] => Reply.give (.int (max a b))
  | "min", [.float a, .float b] => Reply.give (.float (smaller a b))
  | "max", [.float a, .float b] => Reply.give (.float (larger a b))
  | "min", [.int a, .float b] => Reply.give (.float (smaller (Double.ofInt a) b))
  | "max", [.int a, .float b] => Reply.give (.float (larger (Double.ofInt a) b))
  | "min", [.float a, .int b] => Reply.give (.float (smaller a (Double.ofInt b)))
  | "max", [.float a, .int b] => Reply.give (.float (larger a (Double.ofInt b)))
  | "range", [.int a, .int b] => Reply.give (.range a b false)
  | "contains", [.range a b inclusive, .int n] =>
    Reply.give (.bool (a ≤ n && (n < b || (inclusive && n == b))))
  | "start", [.range a _ _] => Reply.give (.int a)
  | "end", [.range _ b _] => Reply.give (.int b)
  | "is_inclusive", [.range _ _ inclusive] => Reply.give (.bool inclusive)
  | "is_exclusive", [.range _ _ inclusive] => Reply.give (.bool !inclusive)
  | "is_empty", [.range a b inclusive] =>
    Reply.give (.bool (if inclusive then b < a else b ≤ a))
  | _, _ => none

end Functions

end RuleService.Snippet
