import RuleService.Snippet.Value
import RuleService.Snippet.Token

namespace RuleService.Snippet

/-- A result outside the numbers. -/
inductive Arithmetic where
  | divisionByZero (left right : Value)
  | remainder (left right : Value)
  | overflow (operation symbol : String) (left right : Value)
  | negativePower (left right : Value)
  | negation (operand : Value)
  | absolute (operand : Value)
  | conversion (operand : Value)
  | notAnInteger (text reason : String)
  | notANumber (text : String)
  | badRadix (radix : Int)

/-- What an index was to find its place in. -/
inductive Indexed where
  | array
  | string
  | bits
  deriving DecidableEq

inductive Fault where
  | malformed (why : Malformation)
  | variableNotFound (name : String)
  | functionNotFound (name : String) (arguments : List Value)
  | moduleNotFound (path : String)
  | inModule (path : String) (inner : Fault)
  | outOfBounds (kind : Indexed) (size : Nat) (index : Int)
  | unknownProperty (name kind : String)
  | readOnlyProperty (name kind : String)
  | notIndexable (kind position : String)
  | kindMismatch (found expected : String)
  | arithmetic (a : Arithmetic)
  | constant (name : String)
  | thrown (v : Value)
  | notIterable
  | tooManyCalls
  | notBound
  | cannotOpen (path why : String)
  | cannotRead (path why : String)
  | endless

namespace Arithmetic

def message : Arithmetic → String
  | divisionByZero a b => "Division by zero: " ++ a.text ++ " / " ++ b.text
  | remainder a b => "Modulo division by zero or overflow: " ++ a.text ++ " % " ++ b.text
  | overflow operation symbol a b =>
    operation ++ " overflow: " ++ a.text ++ " " ++ symbol ++ " " ++ b.text
  | negativePower a b => "Integer raised to a negative power: " ++ a.text ++ " ** " ++ b.text
  | negation a => "Negation overflow: -" ++ a.text
  | absolute a => "Absolute value overflow: " ++ a.text
  | conversion a => "Integer overflow: to_int(" ++ a.text ++ ")"
  | notAnInteger s reason => "Error parsing integer number '" ++ s ++ "': " ++ reason
  | notANumber s =>
    "Error parsing floating-point number '" ++ s ++ "': invalid float literal"
  | badRadix r => "Invalid radix: '" ++ toString r ++ "'"

end Arithmetic

namespace Indexed

def name : Indexed → String
  | array => "Array"
  | string => "String"
  | bits => "Bit-field"

/-- How much there is, in the words of the kind. -/
def extent (kind : Indexed) (size : Nat) : String :=
  match kind, size with
  | array, 0 => "array is empty"
  | array, 1 => "only 1 element in array"
  | array, n => "only " ++ toString n ++ " elements in array"
  | string, 0 => "string is empty"
  | string, 1 => "only 1 character in string"
  | string, n => "only " ++ toString n ++ " characters in string"
  | bits, n => "only " ++ toString n ++ " bits in bit-field"

end Indexed

namespace Fault

/-- The description of a call by the kinds of its arguments. -/
def signature (name : String) (arguments : List Value) : String :=
  name ++ " (" ++ ", ".intercalate (arguments.map Value.argumentKind) ++ ")"

def thrownText (v : Value) : String :=
  match v with
  | .unit | .str "" => "Runtime error"
  | .array _ | .map _ => "Runtime error: " ++ v.debugText
  | v => "Runtime error: " ++ v.text

def message : Fault → String
  | malformed why => "Syntax error: " ++ why.message
  | variableNotFound name => "Variable not found: " ++ name
  | functionNotFound name arguments => "Function not found: " ++ signature name arguments
  | moduleNotFound path => "Module not found: " ++ path
  | inModule path inner => "Error in module '" ++ path ++ "' > " ++ inner.message
  | outOfBounds kind size index =>
    kind.name ++ " index " ++ toString index ++ " out of bounds: " ++ kind.extent size
  | unknownProperty name kind =>
    "Unknown property '" ++ name ++ "' - a getter is not registered for type '" ++ kind ++ "'"
  | readOnlyProperty name kind =>
    "No writable property '" ++ name ++ "' - a setter is not registered for type '" ++ kind ++ "'"
  | notIndexable kind position => "Indexer unavailable: " ++ kind ++ " [" ++ position ++ "]"
  | kindMismatch found expected =>
    "Data type incorrect: " ++ found ++ " (expecting " ++ expected ++ ")"
  | arithmetic a => a.message
  | constant name => "Cannot modify constant: " ++ name
  | thrown v => thrownText v
  | notIterable => "For loop expects iterable type"
  | tooManyCalls => "Stack overflow"
  | notBound => "'this' not bound"
  | cannotOpen path why => "Cannot open script file '" ++ path ++ "': " ++ why
  | cannotRead path why => "Cannot read script file '" ++ path ++ "': " ++ why
  | endless => "Script terminated"

/-- The name of the cause, for a handler that inspects it. -/
def causeName : Fault → String
  | malformed _ => "ErrorParsing"
  | variableNotFound _ => "ErrorVariableNotFound"
  | functionNotFound .. => "ErrorFunctionNotFound"
  | moduleNotFound _ => "ErrorModuleNotFound"
  | inModule .. => "ErrorInModule"
  | outOfBounds .array .. => "ErrorArrayBounds"
  | outOfBounds .string .. => "ErrorStringBounds"
  | outOfBounds .bits .. => "ErrorBitFieldBounds"
  | unknownProperty .. | readOnlyProperty .. => "ErrorDotExpr"
  | notIndexable .. => "ErrorIndexingType"
  | kindMismatch .. => "ErrorMismatchDataType"
  | arithmetic _ => "ErrorArithmetic"
  | constant _ => "ErrorAssignmentToConstant"
  | thrown _ => "ErrorRuntime"
  | notIterable => "ErrorFor"
  | tooManyCalls => "ErrorStackOverflow"
  | notBound => "ErrorUnboundThis"
  | cannotOpen .. | cannotRead .. => "ErrorSystem"
  | endless => "ErrorTerminated"

/-- What a fault is about, by name. -/
def details : Fault → List (String × Value)
  | functionNotFound name arguments => [("function", .str (signature name arguments))]
  | variableNotFound name | constant name => [("variable", .str name)]
  | moduleNotFound path | inModule path _ => [("module", .str path)]
  | kindMismatch found expected => [("actual", .str found), ("requested", .str expected)]
  | outOfBounds _ size index => [("index", .int index), ("length", .int size)]
  | _ => []

/-- The value a handler sees: what was thrown, or a description of the fault. -/
def caught : Fault → Value
  | thrown v => v
  | f => .map (f.details.foldl (fun es d => Value.setEntry es d.1 d.2)
      [("error", .str f.causeName), ("message", .str f.message)])

/-- Faults that no handler catches. -/
def isFinal : Fault → Bool
  | tooManyCalls | endless | malformed _ => true
  | _ => false

end Fault

end RuleService.Snippet
