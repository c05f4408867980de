import RuleService.Snippet.Fault

namespace RuleService.Snippet

namespace Operators

/-- An integer result, or the fault of one outside the integers. -/
def checked (operation symbol : String) (a b n : Int) : Except Fault Value :=
  if Value.isInt n then .ok (.int n)
  else .error (.arithmetic (.overflow operation symbol (.int a) (.int b)))

/-- The lowest 64 bits of a number, as a word. -/
def word (n : Int) : Nat := (n % Int.pow 2 64).toNat

/-- A word read as a signed number. -/
def signed (n : Nat) : Int := Lexer.signed64 (n % Nat.pow 2 64)

/-- Shifts left by a number of bits; a negative number shifts right. -/
def shiftLeft (a b : Int) : Int :=
  if 64 ≤ b then 0
  else if 0 ≤ b then signed (word a * Nat.pow 2 b.toNat)
  else if b ≤ -64 then (if a < 0 then -1 else 0)
  else a >>> (-b).toNat

def shiftRight (a b : Int) : Int :=
  if 64 ≤ b then (if a < 0 then -1 else 0)
  else if 0 ≤ b then a >>> b.toNat
  else shiftLeft a (-b)

/-- Whether an integer power is certain to leave the integers. -/
def power (a : Int) (b : Nat) : Int :=
  if a == 0 || a == 1 then (if b == 0 then 1 else a)
  else if a == -1 then (if b % 2 == 0 then 1 else -1)
  else if 64 < b then Int.pow 2 64
  else Int.pow a b

def ints (operator : String) (a b : Int) : Option (Except Fault Value) :=
  match operator with
  | "+" => some (checked "Addition" "+" a b (a + b))
  | "-" => some (checked "Subtraction" "-" a b (a - b))
  | "*" => some (checked "Multiplication" "*" a b (a * b))
  | "/" =>
    some (if b == 0 then .error (.arithmetic (.divisionByZero (.int a) (.int b)))
      else checked "Division" "/" a b (a.tdiv b))
  | "%" =>
    some (if b == 0 || (a == Value.leastInt && b == -1) then
        .error (.arithmetic (.remainder (.int a) (.int b)))
      else .ok (.int (a.tmod b)))
  | "**" =>
    some (if b < 0 then .error (.arithmetic (.negativePower (.int a) (.int b)))
      else checked "Exponential" "**" a b (power a b.toNat))
  | "<<" => some (.ok (.int (shiftLeft a b)))
  | ">>" => some (.ok (.int (shiftRight a b)))
  | "&" => some (.ok (.int (signed (word a &&& word b))))
  | "|" => some (.ok (.int (signed (word a ||| word b))))
  | "^" => some (.ok (.int (signed (word a ^^^ word b))))
  | "==" => some (.ok (.bool (a == b)))
  | "!=" => some (.ok (.bool (a != b)))
  | "<" => some (.ok (.bool (a < b)))
  | "<=" => some (.ok (.bool (a ≤ b)))
  | ">" => some (.ok (.bool (b < a)))
  | ">=" => some (.ok (.bool (b ≤ a)))
  | ".." => some (.ok (.range a b false))
  | "..=" => some (.ok (.range a b true))
  | _ => none

/-- A power of floats; whole exponents are exact up to one rounding. -/
def floatPower (a b : Double) : Double :=
  match b.truncate? with
  | some n =>
    if b.isWhole && n.natAbs < 100000 then
      if 0 ≤ n then a.powNat n.toNat else (Double.ofInt 1).div (a.powNat n.natAbs)
    else Double.nan
  | none => Double.nan

def floats (operator : String) (a b : Double) : Option (Except Fault Value) :=
  match operator with
  | "+" => some (.ok (.float (a.add b)))
  | "-" => some (.ok (.float (a.sub b)))
  | "*" => some (.ok (.float (a.mul b)))
  | "/" => some (.ok (.float (a.div b)))
  | "%" => some (.ok (.float (a.rem b)))
  | "**" => some (.ok (.float (floatPower a b)))
  | "==" => some (.ok (.bool (a.equals b)))
  | "!=" => some (.ok (.bool (!a.equals b)))
  | "<" => some (.ok (.bool (a.lessThan b)))
  | "<=" => some (.ok (.bool (a.atMost b)))
  | ">" => some (.ok (.bool (b.lessThan a)))
  | ">=" => some (.ok (.bool (b.atMost a)))
  | _ => none

def bools (operator : String) (a b : Bool) : Option (Except Fault Value) :=
  match operator with
  | "==" => some (.ok (.bool (a == b)))
  | "!=" | "^" => some (.ok (.bool (a != b)))
  | "<" => some (.ok (.bool (!a && b)))
  | "<=" => some (.ok (.bool (!a || b)))
  | ">" => some (.ok (.bool (a && !b)))
  | ">=" => some (.ok (.bool (a || !b)))
  | "&" => some (.ok (.bool (a && b)))
  | "|" => some (.ok (.bool (a || b)))
  | _ => none

/-- A text without the occurrences of a piece, which is not empty. -/
def removeAll (piece : List Char) : Nat → List Char → List Char
  | 0, cs => cs
  | fuel + 1, cs =>
    match cs with
    | [] => []
    | c :: rest =>
      if piece.isPrefixOf cs then removeAll piece fuel (cs.drop piece.length)
      else c :: removeAll piece fuel rest

def without (s piece : String) : String :=
  if piece.isEmpty then s
  else String.ofList (removeAll piece.toList (s.length + 1) s.toList)

def texts (operator : String) (a b : String) : Option (Except Fault Value) :=
  match operator with
  | "+" => some (.ok (.str (a ++ b)))
  | "-" => some (.ok (.str (without a b)))
  | "==" => some (.ok (.bool (a == b)))
  | "!=" => some (.ok (.bool (a != b)))
  | "<" => some (.ok (.bool (a < b)))
  | "<=" => some (.ok (.bool (!(b < a))))
  | ">" => some (.ok (.bool (b < a)))
  | ">=" => some (.ok (.bool (!(a < b))))
  | _ => none

def chars (operator : String) (a b : Char) : Option (Except Fault Value) :=
  if operator == "-" then none
  else texts operator (String.singleton a) (String.singleton b)

/-- What comparing values of different kinds gives. -/
def mixed (operator : String) : Option (Except Fault Value) :=
  match operator with
  | "==" | "<" | "<=" | ">" | ">=" => some (.ok (.bool false))
  | "!=" => some (.ok (.bool true))
  | _ => none

/-- Joining with a text or an empty value, where one side is a text. -/
def joined (operator : String) (a b : Value) : Option (Except Fault Value) :=
  match operator, a, b with
  | "+", .str s, v => some (.ok (.str (s ++ v.text)))
  | "+", v, .str s => some (.ok (.str (v.text ++ s)))
  | _, _, _ => mixed operator

/-- Puts the entries of one map over those of another. -/
def merge (a b : Value.Entries) : Value.Entries :=
  b.foldl (fun acc e => Value.setEntry acc e.1 e.2) a

/-- The value of an operator, if it is defined for the kinds of its operands. -/
def builtIn? (operator : String) (a b : Value) : Option (Except Fault Value) :=
  match a, b with
  | .int a, .int b => ints operator a b
  | .float a, .float b => floats operator a b
  | .int a, .float b => floats operator (Double.ofInt a) b
  | .float a, .int b => floats operator a (Double.ofInt b)
  | .bool a, .bool b => bools operator a b
  | .str a, .str b => texts operator a b
  | .str a, .char b => texts operator a (String.singleton b)
  | .char a, .str b =>
    if operator == "-" then none else texts operator (String.singleton a) b
  | .char a, .char b => chars operator a b
  | .unit, .unit => if operator == "==" then some (.ok (.bool true))
    else if ["!=", "<", "<=", ">", ">="].contains operator then some (.ok (.bool false))
    else none
  | .array as, .array bs =>
    match operator with
    | "+" => some (.ok (.array (as ++ bs)))
    | "==" => some (.ok (.bool (a.equals b)))
    | "!=" => some (.ok (.bool (!a.equals b)))
    | _ => none
  | .map as, .map bs =>
    match operator with
    | "+" => some (.ok (.map (merge as bs)))
    | "==" => some (.ok (.bool (a.equals b)))
    | "!=" => some (.ok (.bool (!a.equals b)))
    | _ => none
  | .range .., .range .. | .bytes _, .bytes _ =>
    match operator with
    | "==" => some (.ok (.bool (a.equals b)))
    | "!=" => some (.ok (.bool (!a.equals b)))
    | _ => if a.kind == b.kind then none else mixed operator
  | .function .., .function .. => none
  | a, b => joined operator a b

/-- The value of an operator, or the fault that it is not defined. -/
def apply (operator : String) (a b : Value) : Except Fault Value :=
  (builtIn? operator a b).getD (.error (.functionNotFound operator [a, b]))

def negate (v : Value) : Except Fault Value :=
  match v with
  | .int n =>
    if n == Value.leastInt then .error (.arithmetic (.negation v)) else .ok (.int (-n))
  | .float d => .ok (.float d.neg)
  | v => .error (.functionNotFound "-" [v])

def applyUnary (operator : String) (v : Value) : Except Fault Value :=
  match operator, v with
  | "-", v => negate v
  | "+", .int n => .ok (.int n)
  | "+", .float d => .ok (.float d)
  | "!", .bool b => .ok (.bool !b)
  | op, v => .error (.functionNotFound op [v])

/-- Whether a value is in an array, a text, a map or a range. -/
def contains? (container item : Value) : Option (Except Fault Bool) :=
  match container, item with
  | .array items, v => some (.ok (items.any fun w => w.equals v))
  | .str s, .str t => some (.ok ((s.splitOn t).length != 1 || t.isEmpty))
  | .str s, .char c => some (.ok (s.toList.contains c))
  | .map entries, .str k => some (.ok (Value.entry? entries k).isSome)
  | .range low high inclusive, .int n =>
    some (.ok (low ≤ n && (n < high || (inclusive && n == high))))
  | _, _ => none

def isIn (item container : Value) : Except Fault Value :=
  match contains? container item with
  | some r => r.map .bool
  | none => .error (.functionNotFound "contains" [container, item])

end Operators

end RuleService.Snippet
