import RuleService.Json.Basic
import RuleService.Snippet.Syntax
import RuleService.Double.Format
import RuleService.Double.Arithmetic
import RuleService.Text.Quoted

namespace RuleService.Snippet

/-- A value. The entries of a map are in the order of their keys, each once. -/
inductive Value where
  | unit
  | bool (b : Bool)
  | int (n : Int)
  | float (d : Double)
  | char (c : Char)
  | str (s : String)
  | array (items : List Value)
  | map (entries : List (String × Value))
  | range (low high : Int) (inclusive : Bool)
  | bytes (count : Nat)
  /-- A function with its first arguments; named ones are looked up when called, and the others
  bring the functions they may call. -/
  | function (name : String) (params : List String) (body : Option Stmt)
      (functions : List Function) (given : List Value)
  /-- A cell that several variables share. -/
  | shared (cell : Nat)
  deriving Inhabited

namespace Value

abbrev Entries := List (String × Value)

/-- The value of a key in a map. -/
def entry? (entries : Entries) (key : String) : Option Value := entries.lookup key

/-- Sets the value of a key, keeping the order of keys. -/
def setEntry : Entries → String → Value → Entries
  | [], key, v => [(key, v)]
  | (k, old) :: rest, key, v =>
    if key == k then (key, v) :: rest
    else if key < k then (key, v) :: (k, old) :: rest
    else (k, old) :: setEntry rest key v

def removeEntry (entries : Entries) (key : String) : Entries :=
  entries.filter fun e => e.1 != key

def leastInt : Int := -Int.pow 2 63

def greatestInt : Int := Int.pow 2 63 - 1

/-- Whether a number is one of the integers of the language. -/
def isInt (n : Int) : Bool := leastInt ≤ n && n ≤ greatestInt

/-- The name of the kind of a value. -/
def kind : Value → String
  | unit => "()"
  | bool _ => "bool"
  | int _ => "i64"
  | float _ => "f64"
  | char _ => "char"
  | str _ => "string"
  | array _ => "array"
  | map _ => "map"
  | range _ _ false => "range"
  | range _ _ true => "range="
  | bytes _ => "blob"
  | function .. => "Fn"
  | shared _ => "shared"

/-- The name of the kind of an argument, in the description of a call. -/
def argumentKind : Value → String
  | str _ => "&str | ImmutableString | String"
  | v => v.kind

mutual

/-- The quoting text of a value: what its text is inside an array or a map. -/
def debugText : Value → String
  | unit => "()"
  | bool b => if b then "true" else "false"
  | int n => toString n
  | float d => Double.quotedLayout.render d
  | char c => Text.quotedChar c
  | str s => Text.quoted s
  | array items => "[" ++ debugItems true items ++ "]"
  | map entries => "#\x7b" ++ debugEntries true entries ++ "\x7d"
  | range low high inclusive =>
    toString low ++ (if inclusive then "..=" else "..") ++ toString high
  | bytes count => "[" ++ String.ofList (List.replicate (2 * count) '0') ++ "]"
  | function name .. => "Fn(" ++ name ++ ")"
  | shared _ => "()"

def debugItems (first : Bool) : List Value → String
  | [] => ""
  | v :: vs => (if first then "" else ", ") ++ v.debugText ++ debugItems false vs

def debugEntries (first : Bool) : List (String × Value) → String
  | [] => ""
  | (k, v) :: es =>
    (if first then "" else ", ") ++ Text.quoted k ++ ": " ++ v.debugText ++ debugEntries false es

end

/-- The text of a value on its own. -/
def text : Value → String
  | unit => ""
  | float d => Double.printed d
  | char c => String.singleton c
  | str s => s
  | v => v.debugText

mutual

/-- Equality of values: numbers by value, texts and characters by their text, arrays and maps part
by part; values of different kinds differ. -/
def equals : Value → Value → Bool
  | unit, unit => true
  | bool a, bool b => a == b
  | int a, int b => a == b
  | int a, float b => (Double.ofInt a).equals b
  | float a, int b => a.equals (Double.ofInt b)
  | float a, float b => a.equals b
  | char a, char b => a == b
  | char a, str b => String.singleton a == b
  | str a, char b => a == String.singleton b
  | str a, str b => a == b
  | array as, array bs => itemsEqual as bs
  | map as, map bs => entriesEqual as bs
  | range a b i, range c d j => a == c && b == d && i == j
  | bytes a, bytes b => a == b
  | _, _ => false

def itemsEqual : List Value → List Value → Bool
  | [], [] => true
  | a :: as, b :: bs => a.equals b && itemsEqual as bs
  | _, _ => false

def entriesEqual : List (String × Value) → List (String × Value) → Bool
  | [], [] => true
  | (k, a) :: as, (l, b) :: bs => k == l && a.equals b && entriesEqual as bs
  | _, _ => false

end

mutual

/-- A JSON value as a value: whole numbers beyond the integers become floats, and keys are put in
order. -/
def ofJson : Json → Value
  | .null => unit
  | .bool b => bool b
  | .int n => if isInt n then int n else float (Double.ofInt n)
  | .float d => float d
  | .str s => str s
  | .arr items => array (ofJsonItems items)
  | .obj fields => map (ofJsonFields fields)

def ofJsonItems : List Json → List Value
  | [] => []
  | v :: vs => ofJson v :: ofJsonItems vs

def ofJsonFields : List (String × Json) → Entries
  | [] => []
  | (k, v) :: fields => setEntry (ofJsonFields fields) k (ofJson v)

end

mutual

/-- The JSON form of a value; none for functions, ranges and bytes, also inside others. -/
def toJson? : Value → Option Json
  | unit => some .null
  | bool b => some (.bool b)
  | int n => some (.int n)
  | float d => some (Json.ofDouble d)
  | char c => some (.str (String.singleton c))
  | str s => some (.str s)
  | array items => (toJsonItems? items).map .arr
  | map entries => (toJsonEntries? entries).map .obj
  | _ => none

def toJsonItems? : List Value → Option (List Json)
  | [] => some []
  | v :: vs => do
    let x ← v.toJson?
    let xs ← toJsonItems? vs
    pure (x :: xs)

def toJsonEntries? : List (String × Value) → Option (List (String × Json))
  | [] => some []
  | (k, v) :: es => do
    let x ← v.toJson?
    let xs ← toJsonEntries? es
    pure ((k, x) :: xs)

end

end Value

end RuleService.Snippet
