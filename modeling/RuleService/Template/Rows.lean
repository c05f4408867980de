import RuleService.Json.Printer
import RuleService.Text.Blank
import RuleService.Text.Split

namespace RuleService

/-- How a text is laid out in rows. -/
structure RowLayout where
  delimiter : String
  /-- Whether the first row names the cells. -/
  headed : Bool
  /-- The names of the cells, unless the first row gives them. -/
  names : List String
  deriving Inhabited

/-- A row that is not blank, with the number of its line. -/
structure Row where
  line : Nat
  cells : List String
  deriving Inhabited

namespace Row

def isBlank (line : String) : Bool := (Text.trim line).isEmpty

/-- The rows of a text: its lines that are not blank, cut at the delimiter. -/
def ofText (delimiter text : String) : List Row :=
  ((Text.lines text).zipIdx 1).filterMap fun (line, n) =>
    if isBlank line then none else some ⟨n, Text.split delimiter line⟩

/-- The names an element sees in a row. -/
def locals (names : List String) (row : Row) : Fields :=
  [("lineno", .int row.line), ("cols", .arr (row.cells.map .str)),
    ("col", .obj (Named.putAll [] ((names.zip row.cells).map fun (name, c) => (name, .str c))))]

end Row

namespace RowLayout

/-- The names of the cells, and the rows that are items. -/
def table (layout : RowLayout) (text : String) : List String × List Row :=
  let rows := Row.ofText layout.delimiter text
  match layout.headed, rows with
  | true, first :: rest => (first.cells, rest)
  | _, _ => (layout.names, rows)

/-- What the element sees, for each item in turn. -/
def items (layout : RowLayout) (text : String) : List Fields :=
  let (names, rows) := layout.table text
  rows.map (Row.locals names)

/-- The layout a descriptor asks for. -/
def ofFields (fields : Fields) : RowLayout where
  delimiter := match Named.get? fields "delimiter" with
    | some (.str d) => if d.isEmpty then "," else d
    | _ => ","
  headed := (Named.get? fields "firstLineHeader").any Json.isTruthy
  names := match Named.get? fields "headers" with
    | some (.arr names) => names.map Json.display
    | _ => []

end RowLayout

end RuleService
