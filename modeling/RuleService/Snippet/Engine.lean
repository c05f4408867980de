import RuleService.Engine
import RuleService.Snippet.Interpreter
import RuleService.Storage.Files

namespace RuleService.Snippet

/-- The modules by name, the latest first. -/
abbrev Modules := List (String × Module)

/-- The modules every engine has. -/
def ownModules : Modules := [("lib", .helpers)]

/-- A machine whose variables are the bindings. -/
def Machine.ofBindings (bindings : Bindings) (seed : Nat) : Machine :=
  { scope := bindings.reverse.map fun (name, v) => { name, value := Value.ofJson v },
    seed := seed }

/-- How a machine and an outcome look from outside. -/
def finishOf (r : Except Signal Value) (m : Machine) : Finish :=
  { outcome := match r with
      | .ok v | .error (.finished v) | .error (.left v) => .ok (m.content v).toJson?
      | .error .again => .ok (some .null)
      | .error (.fault f) => .error f.message,
    binding := fun name => (m.find? name).map fun b => (m.content b.value).toJson?,
    printed := m.printed.reverse }

/-- The engine with some modules, script files and a seed for its random draws. -/
def engine (modules : Modules) (scripts : String → Option String) (seed : Nat) : Engine :=
  let start (bindings : Bindings) (x : Run Value) : Finish :=
    let (r, m) := x.run (Machine.ofBindings bindings seed)
    finishOf r m
  { expression := fun code bindings => start bindings <|
      match Expr.ofText code with
      | .error why => Run.fail (.malformed why)
      | .ok e => Interpreter.evalExpr (Interpreter.run Interpreter.nestingLimit)
          { functions := [], modules := modules, scripts := scripts } e,
    script := fun code bindings => start bindings <|
      match Program.ofText code with
      | .error why => Run.fail (.malformed why)
      | .ok program =>
        let program := program.simplify
        Interpreter.runBody (Interpreter.run Interpreter.nestingLimit)
          { functions := program.functions, modules := modules, scripts := scripts }
          program.body }

/-- A script text without its first line if that names an interpreter. -/
def withoutHashLine (text : String) : String :=
  match text.toList with
  | '#' :: '!' :: rest => String.ofList (rest.dropWhile (· != '\n'))
  | _ => text

/-- A module from the text of a script file. -/
def moduleOfText (modules : Modules) (scripts : String → Option String) (text : String) :
    Except Fault Module :=
  let s : Surroundings := { functions := [], modules := modules, scripts := scripts }
  let go := Interpreter.run Interpreter.nestingLimit
  match ((Interpreter.loadModule go s (withoutHashLine text)).run { scope := [] }).1 with
  | .ok m => .ok m
  | .error (.fault f) => .error f
  | .error _ => .ok (.script [] [])

/-- The text of a script file. -/
def scriptText (files : Files) (path : String) : Except Fault String :=
  (files.readText path).mapError fun
    | .isADirectory => .cannotRead path ReadFault.isADirectory.message
    | .refused .inputOutput => .cannotRead path Refusal.inputOutput.message
    | .notText => .cannotRead path ReadFault.notText.message
    | why => .cannotOpen path why.message

/-- The scripts that snippets import themselves. -/
def scriptsOf (files : Files) (path : String) : Option String := (files.readText path).toOption

namespace Modules

/-- Loads a script file as a module, over one of that name. -/
def load (modules : Modules) (files : Files) (name path : String) : Except Failure Modules :=
  let loaded : Except Fault Module := do
    moduleOfText modules (scriptsOf files) (← scriptText files path)
  match loaded with
  | .ok m => .ok ((name, m) :: modules)
  | .error f => .error (.evaluation path f.message)

end Modules

end RuleService.Snippet
