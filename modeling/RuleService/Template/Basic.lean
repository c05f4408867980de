import RuleService.Script
import RuleService.Template.Count
import RuleService.Template.Rows

namespace RuleService

/-- What a command added to the built-in ones does with its body. The last argument expands the body
as a template. -/
abbrev Handler := Json → Effect (Option Json) → Effect (Option Json)

/-- The meaning of a command name. -/
inductive Command where
  | array
  | csv
  | exec
  | choice
  | custom (handler : Handler)

/-- Commands by name. -/
abbrev Commands := List (String × Command)

namespace Commands

/-- The commands every service has. -/
def builtIn : Commands :=
  [("$array", .array), ("$csv", .csv), ("$exec", .exec), ("$if", .choice)]

/-- Adds a command, over one of that name. -/
def register (commands : Commands) (name : String) (handler : Handler) : Commands :=
  (name, .custom handler) :: commands

def knows (commands : Commands) (name : String) : Bool := (commands.lookup name).isSome

end Commands

/-- The condition of an `$if`. -/
inductive Condition where
  | known (v : Json)
  | text (pieces : List Piece)
  deriving Inhabited

namespace Condition

def ofJson : Json → Condition
  | .str s => .text (Piece.ofText s)
  | v => .known v

def value (engine : Engine) (ctx : Context) : Condition → Effect Json
  | known v => pure v
  | text pieces => expandPieces engine ctx pieces

end Condition

/-- A template with its commands recognised. -/
inductive Template where
  /-- A value that stands for itself. -/
  | verbatim (v : Json)
  | text (pieces : List Piece)
  | items (templates : List Template)
  | object (fields : List (String × Template))
  | repeated (count : Count) (element : Template)
  | rows (file : List Piece) (layout : RowLayout) (element : Template)
  | statements (script : Script)
  | choice (condition : Condition) (yes no : Template)
  /-- Nothing. -/
  | omitted
  /-- A command whose body has not the form it wants. -/
  | faulty (f : Failure)
  | custom (handler : Handler) (body : Json) (inner : Template)
  deriving Inhabited

namespace Template

/-- Whether a key names a command. -/
def isCommandName (key : String) : Bool := key.toList.head? == some '$'

/-- A command whose body is no object. -/
def notAnObject (command : String) : Template :=
  .faulty (.malformed command "expected an object descriptor")

/-- A command whose body lacks a field. -/
def missing (command field : String) : Template :=
  .faulty (.malformed command ("\x60" ++ field ++ "\x60 is required"))

def ofExec (body : Json) : Template :=
  match Script.ofJson? body with
  | some script => .statements script
  | none => .faulty (.malformed "$exec" "expected a statement or a list of statements")

mutual

/-- The template a value stands for. -/
def ofJson (commands : Commands) : Json → Template
  | .obj fields => (firstCommand? commands fields).getD (.object (ofFields commands fields))
  | .arr vs => .items (ofItems commands vs)
  | .str s => .text (Piece.ofText s)
  | .null => .verbatim .null
  | .bool b => .verbatim (.bool b)
  | .int n => .verbatim (.int n)
  | .float d => .verbatim (.float d)

def ofItems (commands : Commands) : List Json → List Template
  | [] => []
  | v :: rest => ofJson commands v :: ofItems commands rest

def ofFields (commands : Commands) : List (String × Json) → List (String × Template)
  | [] => []
  | (key, v) :: rest => (key, ofJson commands v) :: ofFields commands rest

/-- The first command among the fields: that of the first key which begins with `$`. -/
def firstCommand? (commands : Commands) : List (String × Json) → Option Template
  | [] => none
  | (key, body) :: rest =>
    if isCommandName key then some (ofCommand commands (key, body))
    else firstCommand? commands rest

/-- The command of a name and a body. One that is not known stands for itself. -/
def ofCommand (commands : Commands) : String × Json → Template
  | (name, body) =>
    match commands.lookup name with
    | some .array => ofArray commands body
    | some .csv => ofCsv commands body
    | some .exec => ofExec body
    | some .choice => ofIf commands body
    | some (.custom handler) => .custom handler body (ofJson commands body)
    | none => .verbatim (.obj [(name, body)])

def ofArray (commands : Commands) : Json → Template
  | .obj fields =>
    match Named.get? fields "count", field? commands "element" fields with
    | none, _ => missing "$array" "count"
    | some _, none => missing "$array" "element"
    | some count, some element => .repeated (Count.ofJson count) element
  | _ => notAnObject "$array"

def ofCsv (commands : Commands) : Json → Template
  | .obj fields =>
    match Named.get? fields "file", field? commands "element" fields with
    | none, _ => missing "$csv" "file"
    | some _, none => missing "$csv" "element"
    | some (.str file), some element =>
      .rows (Piece.ofText file) (RowLayout.ofFields fields) element
    | some _, some _ => .faulty (.malformed "$csv" "\x60file\x60 must be a string")
  | _ => notAnObject "$csv"

def ofIf (commands : Commands) : Json → Template
  | .obj fields =>
    match Named.get? fields "condition", field? commands "then" fields with
    | none, _ => missing "$if" "condition"
    | some _, none => missing "$if" "then"
    | some condition, some yes =>
      .choice (Condition.ofJson condition) yes ((field? commands "else" fields).getD .omitted)
  | _ => notAnObject "$if"

/-- The template in a field. -/
def field? (commands : Commands) (key : String) : List (String × Json) → Option Template
  | [] => none
  | (k, v) :: rest => if k == key then some (ofJson commands v) else field? commands key rest

end

end Template

end RuleService
