import RuleService.Snippet.Functions.Reply

namespace RuleService.Snippet

/-- A variable in scope. -/
structure Binding where
  name : String
  value : Value
  constant : Bool := false
  deriving Inhabited

/-- Functions and values that snippets reach through a name. -/
inductive Module where
  /-- The helpers that come with the service. -/
  | helpers
  | script (functions : List Function) (values : List (String × Value))
  deriving Inhabited

/-- What stays fixed while a function runs. -/
structure Surroundings where
  functions : List Function
  modules : List (String × Module)
  /-- The text of a script file, if there is one. -/
  scripts : String → Option String

structure Machine where
  /-- The variables, the latest first. -/
  scope : List Binding
  this : Option Value := none
  /-- The contents of the shared cells. -/
  cells : Array Value := #[]
  imports : List (String × Module) := []
  /-- The variables to be published, with the names they are published under. -/
  exports : List (String × String) := []
  /-- The texts printed so far, the latest first. -/
  printed : List String := []
  /-- The calls under way. -/
  calls : Nat := 0
  seed : Nat := 0
  deriving Inhabited

/-- Why the statements that follow do not run. -/
inductive Signal where
  | fault (f : Fault)
  | left (v : Value)
  | again
  | finished (v : Value)

abbrev Run := ExceptT Signal (StateM Machine)

namespace Run

def fail {α : Type} (f : Fault) : Run α := throw (.fault f)

def ofExcept {α : Type} (r : Except Fault α) : Run α :=
  match r with
  | .ok a => pure a
  | .error f => fail f

/-- Runs to the end whatever happens, and gives the outcome. -/
def observe {α : Type} (x : Run α) : Run (Except Signal α) :=
  ExceptT.mk (Except.ok <$> x.run)

/-- Goes on as an observed run ended. -/
def resume {α : Type} (r : Except Signal α) : Run α := ExceptT.mk (pure r)

/-- Runs in a scope of its own: what it declares and imports is gone afterwards, however it ends. -/
def inBlock {α : Type} (x : Run α) : Run α := do
  let size := (← get).scope.length
  let imports := (← get).imports
  let r ← observe x
  modify fun m => { m with scope := m.scope.drop (m.scope.length - size), imports := imports }
  resume r

end Run

namespace Machine

/-- The value a variable holds, itself or in its cell. -/
def content (m : Machine) (v : Value) : Value :=
  match v with
  | .shared c => m.cells.getD c .unit
  | v => v

def find? (m : Machine) (name : String) : Option Binding := m.scope.find? (·.name == name)

/-- Replaces the value of the latest variable of a name. -/
def replace (name : String) (v : Value) : List Binding → List Binding
  | [] => []
  | b :: bs => if b.name == name then { b with value := v } :: bs else b :: replace name v bs

def assign (m : Machine) (name : String) (v : Value) : Machine :=
  match m.find? name with
  | some { value := .shared c, .. } => { m with cells := m.cells.setIfInBounds c v }
  | _ => { m with scope := replace name v m.scope }

def declare (m : Machine) (b : Binding) : Machine := { m with scope := b :: m.scope }

/-- Makes a variable share its value through a cell. -/
def share (m : Machine) (name : String) : Option (Value × Machine) :=
  (m.find? name).map fun b =>
    match b.value with
    | .shared c => (.shared c, m)
    | v =>
      let c := m.cells.size
      (.shared c, { m with cells := m.cells.push v, scope := replace name (.shared c) m.scope })

/-- A number below `n`, and the machine after the draw. -/
def draw (m : Machine) (n : Nat) : Nat × Machine :=
  let seed := (m.seed * 6364136223846793005 + 1442695040888963407) % Nat.pow 2 64
  ((seed / Nat.pow 2 33) % n, { m with seed := seed })

end Machine

/-- The module a path leads to. -/
def moduleOf (s : Surroundings) (m : Machine) (path : List String) : Option Module :=
  match path with
  | [name] => (m.imports.lookup name) <|> (s.modules.lookup name)
  | _ => none

end RuleService.Snippet
