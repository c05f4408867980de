import RuleService.Snippet.Functions.Table
import RuleService.Snippet.Helpers
import RuleService.Snippet.Parser
import RuleService.Snippet.Simplify
import RuleService.Storage.Path

namespace RuleService.Snippet

/-- A phrase to run. -/
inductive Task where
  | expr (s : Surroundings) (e : Expr)
  | stmt (s : Surroundings) (st : Stmt)

abbrev Go := Task → Run Value

namespace Interpreter

/-- Calls under way at the same time are limited. -/
def callLimit : Nat := 64

/-- Rounds of one loop are limited. -/
def roundLimit : Nat := Nat.pow 2 32

/-- The statements of a body in order; the value is that of the last one. -/
def runBody (go : Go) (s : Surroundings) : List Stmt → Run Value
  | [] => pure .unit
  | [st] => go (.stmt s st)
  | st :: rest => do
    let _ ← go (.stmt s st)
    runBody go s rest

def evalAll (go : Go) (s : Surroundings) : List Expr → Run (List Value)
  | [] => pure []
  | e :: es => do
    let v ← go (.expr s e)
    return v :: (← evalAll go s es)

def readVariable (name : String) : Run Value := do
  let m ← get
  match m.find? name with
  | some b => return m.content b.value
  | none => Run.fail (.variableNotFound name)

/-- Runs the body of a function on its arguments, in a scope of its own; also gives what became of
the value it was called on. -/
def enter (go : Go) (s : Surroundings) (params : List String) (body : List Stmt)
    (args : List Value) (this : Option Value) : Run (Value × Option Value) := do
  let m ← get
  if callLimit ≤ m.calls then Run.fail .tooManyCalls
  let scope := (params.zip args).reverse.map fun (name, value) => { name, value : Binding }
  set { m with scope := scope, this := this, calls := m.calls + 1 }
  let r ← Run.observe (runBody go s body)
  let after ← get
  set { after with scope := m.scope, this := m.this, calls := m.calls, imports := m.imports }
  match r with
  | .error (.finished v) => return (v, after.this)
  | r => return (← Run.resume r, after.this)

def functionNamed? (fs : List Function) (name : String) (arity : Nat) : Option Function :=
  fs.find? fun f => f.name == name && f.params.length == arity

/-- Calls a function value, `this` being what it is called on. -/
def callValue (go : Go) (s : Surroundings) (f : Value) (args : List Value)
    (this : Option Value) : Run (Value × Option Value) :=
  match f with
  | .function name params (some body) functions given =>
    let args := given ++ args
    if params.length == args.length then
      enter go { s with functions := functions } params [body] args this
    else Run.fail (.functionNotFound name args)
  | .function name _ none functions given =>
    let args := given ++ args
    match functionNamed? functions name args.length with
    | some g => enter go { s with functions := functions } g.params g.body args this
    | none =>
      match Functions.plain? name args with
      | some r => do return ((← Run.ofExcept r).value, this)
      | none => Run.fail (.functionNotFound name args)
  | v => Run.fail (.functionNotFound "call" (v :: args))

/-- Passes arguments to a function value, and the extra one if it takes one more. A function
without parameters is called on the first argument. -/
def callWith (go : Go) (s : Surroundings) (f : Value) (args : List Value) (extra : Value) :
    Run Value := do
  let arity := match f with
    | .function _ params (some _) _ given => params.length - given.length
    | .function name _ none functions given =>
      if (functionNamed? functions name (given.length + args.length + 1)).isSome then
        args.length + 1
      else args.length
    | _ => args.length
  if arity == 0 then return (← callValue go s f [] args.head?).1
  else if arity == args.length + 1 then return (← callValue go s f (args ++ [extra]) none).1
  else return (← callValue go s f args none).1

def printText (text : String) : Run Unit :=
  modify fun m => { m with printed := text :: m.printed }

/-- The functions that look at the machine or at the functions of the script. -/
def special? (go : Go) (s : Surroundings) (name : String) (args : List Value) :
    Option (Run Reply) :=
  match name, args with
  | "print", [] => some do
    printText ""
    return { value := .unit }
  | "print", [v] => some do
    printText v.text
    return { value := .unit }
  | "debug", [] => some do
    printText ""
    return { value := .unit }
  | "debug", [v] => some do
    printText v.debugText
    return { value := .unit }
  | "type_of", [v] => some (pure { value := .str v.kind })
  | "Fn", [.str name] => some (pure { value := .function name [] none s.functions [] })
  | "call", f@(.function ..) :: rest => some do
    return { value := (← callValue go s f rest none).1 }
  | "curry", .function name params body functions given :: rest =>
    some (pure { value := .function name params body functions (given ++ rest) })
  | "is_def_var", [.str name] => some do
    return { value := .bool ((← get).find? name).isSome }
  | "is_def_fn", [.str name, .int n] =>
    some (pure { value := .bool (functionNamed? s.functions name n.toNat).isSome })
  | _, _ => none

/-- Calls a built-in function. -/
def callBuiltIn (go : Go) (s : Surroundings) (name : String) (args : List Value) : Run Reply :=
  match special? go s name args with
  | some r => r
  | none =>
    match Functions.calling? (callWith go s) name args with
    | some r => r
    | none =>
      match Functions.plain? name args with
      | some r => Run.ofExcept r
      | none => Run.fail (.functionNotFound name args)

/-- Calls a function by its name: one of the script, or a built-in one. -/
def callNamed (go : Go) (s : Surroundings) (name : String) (args : List Value) : Run Reply :=
  match functionNamed? s.functions name args.length with
  | some f => do return { value := (← enter go s f.params f.body args none).1 }
  | none => callBuiltIn go s name args

/-- Calls a function on a value; also gives what becomes of the value. -/
def callMethod (go : Go) (s : Surroundings) (target : Value) (name : String)
    (args : List Value) : Run (Value × Value) := do
  let builtIn : Run (Value × Value) := do
    let r ← callBuiltIn go s name (target :: args)
    return (r.value, r.target.getD target)
  let scripted : Run (Value × Value) := do
    match functionNamed? s.functions name args.length with
    | some f =>
      let (v, this) ← enter go s f.params f.body args (some target)
      return (v, this.getD target)
    | none => builtIn
  match target with
  | .map entries =>
    match Value.entry? entries name with
    | some f@(.function ..) =>
      let (v, this) ← callValue go s f args (some target)
      return (v, this.getD target)
    | _ => scripted
  | _ => scripted

/-- The path and name of something in a module. -/
def qualifiedName (path : List String) (name : String) : String :=
  "::".intercalate (path ++ [name])

/-- Calls a function of a module. -/
def callQualified (go : Go) (s : Surroundings) (path : List String) (name : String)
    (args : List Value) : Run Value := do
  let missing : Run Value := Run.fail (.functionNotFound (qualifiedName path name) args)
  match moduleOf s (← get) path with
  | none => Run.fail (.moduleNotFound ("::".intercalate path))
  | some .helpers => (Helpers.call? name args).getD missing
  | some (.script functions _) =>
    match functionNamed? (functions.filter (! ·.isPrivate)) name args.length with
    | some f => return (← enter go { s with functions := functions } f.params f.body args none).1
    | none => missing

/-- A value published by a module. -/
def readQualified (s : Surroundings) (path : List String) (name : String) : Run Value := do
  let values ← match moduleOf s (← get) path with
    | none => Run.fail (.moduleNotFound ("::".intercalate path))
    | some .helpers => pure Helpers.constants
    | some (.script _ values) => pure values
  match values.lookup name with
  | some v => return v
  | none => Run.fail (.variableNotFound (qualifiedName path name))

/-- A call by name. A variable as first argument is what the function may change. -/
def evalCall (go : Go) (s : Surroundings) (path : List String) (name : String)
    (args : List Expr) : Run Value :=
  match path, args with
  | [], .var x :: rest => do
    let others ← evalAll go s rest
    let v ← readVariable x
    let r ← callNamed go s name (v :: others)
    if let some t := r.target then modify fun m => m.assign x t
    return r.value
  | [], args => do return (← callNamed go s name (← evalAll go s args)).value
  | path, args => do callQualified go s path name (← evalAll go s args)

/-- A step of a selection with its arguments evaluated. -/
inductive Step where
  | property (safe : Bool) (name : String)
  | method (safe : Bool) (name : String) (args : List Value)
  | index (safe : Bool) (position : Value)

def Step.isSafe : Step → Bool
  | property safe _ | method safe _ _ | index safe _ => safe

def prepare (go : Go) (s : Surroundings) : List Link → Run (List Step)
  | [] => pure []
  | .property safe name :: rest => do return .property safe name :: (← prepare go s rest)
  | .method safe name args :: rest => do
    let vs ← evalAll go s args
    return .method safe name vs :: (← prepare go s rest)
  | .index safe e :: rest => do
    let v ← go (.expr s e)
    return .index safe v :: (← prepare go s rest)

/-- The bit of a number that an index stands for. -/
def bitOf (index : Int) : Except Fault Nat :=
  match placeOf 64 index with
  | some i => .ok i
  | none => .error (.outOfBounds .bits 64 index)

/-- What is at a position of a value. -/
def itemAt (v position : Value) : Except Fault Value :=
  match v, position with
  | .array xs, .int n =>
    match placeOf xs.length n with
    | some i => .ok (xs.getD i .unit)
    | none => .error (.outOfBounds .array xs.length n)
  | .array _, p => .error (.kindMismatch p.kind "i64")
  | .map es, .str k => .ok ((Value.entry? es k).getD .unit)
  | .map _, p => .error (.kindMismatch p.kind "string")
  | .str t, .int n =>
    match placeOf t.length n with
    | some i => .ok (.char (t.toList.getD i ' '))
    | none => .error (.outOfBounds .string t.length n)
  | .str t, .range low high inclusive =>
    let (i, count) := rangePart t.length low high inclusive
    .ok (.str (String.ofList ((t.toList.drop i).take count)))
  | .str _, p => .error (.kindMismatch p.kind "i64")
  | .int n, .int i => (bitOf i).map fun i => .bool (Operators.word n / Nat.pow 2 i % 2 == 1)
  | .bytes n, .int i =>
    match placeOf n i with
    | some _ => .ok (.int 0)
    | none => .error (.outOfBounds .array n i)
  | v, p => .error (.notIndexable v.kind p.kind)

/-- The value with another one put at a position, which is there. -/
def putAt (v position new : Value) : Value :=
  match v, position with
  | .array xs, .int n => .array (((placeOf xs.length n).map fun i => xs.set i new).getD xs)
  | .map es, .str k => if (Value.entry? es k).isSome then .map (Value.setEntry es k new) else v
  | v, _ => v

/-- The value that an assignment gives a place, from its old value and the operand. -/
def assigned (operator : Option String) (old new : Value) : Except Fault Value :=
  match operator, old, new with
  | none, _, v => .ok v
  | some "+", .array xs, .array ys => .ok (.array (xs ++ ys))
  | some "+", .array xs, v => .ok (.array (xs ++ [v]))
  | some op, old, v => Operators.apply op old v

/-- Puts a value at a position, making a missing key first; the value is returned as far as it was
changed even if the assignment fails. -/
def assignAt (v position : Value) (operator : Option String) (new : Value) :
    Except Fault Unit × Value :=
  match v, position with
  | .map es, .str k =>
    let es := if (Value.entry? es k).isSome then es else Value.setEntry es k .unit
    match assigned operator ((Value.entry? es k).getD .unit) new with
    | .ok w => (.ok (), .map (Value.setEntry es k w))
    | .error f => (.error f, .map es)
  | .array _, _ =>
    match itemAt v position with
    | .error f => (.error f, v)
    | .ok old =>
      match assigned operator old new with
      | .ok w => (.ok (), putAt v position w)
      | .error f => (.error f, v)
  | .str t, .int n =>
    match itemAt v position with
    | .error f => (.error f, v)
    | .ok old =>
      match assigned operator old new with
      | .ok (.char c) =>
        (.ok (), .str (String.ofList (t.toList.set ((placeOf t.length n).getD 0) c)))
      | .ok w => (.error (.kindMismatch w.kind "char"), v)
      | .error f => (.error f, v)
  | .int n, .int i =>
    match bitOf i, assigned operator (.bool false) new with
    | .ok i, .ok (.bool b) =>
      let w := Operators.word n
      let cleared := w - (w / Nat.pow 2 i % 2) * Nat.pow 2 i
      (.ok (), .int (Operators.signed (cleared + (if b then Nat.pow 2 i else 0))))
    | .error f, _ => (.error f, v)
    | _, .ok w => (.error (.kindMismatch w.kind "bool"), v)
    | _, .error f => (.error f, v)
  | v, p =>
    match itemAt v p with
    | .error f => (.error f, v)
    | .ok _ => (.error (.notIndexable v.kind p.kind), v)

/-- A selection that ends in a value or in an assignment; the selected-in value is returned as it
is afterwards, also when something fails. -/
def walk (go : Go) (s : Surroundings) (assign : Option (Option String × Value)) :
    List Step → Value → Run (Except Signal Value × Value)
  | [], v => pure (.ok v, v)
  | step :: rest, target => do
    let (cell, v) ← match target with
      | .shared c => pure (some c, (← get).content target)
      | v => pure (none, v)
    let back (r : Except Signal Value × Value) : Run (Except Signal Value × Value) := do
      match cell with
      | some c =>
        modify fun m => { m with cells := m.cells.setIfInBounds c r.2 }
        return (r.1, target)
      | none => return r
    let isLast := rest.isEmpty
    /- Goes on in a part of the value, and puts the part back as it is afterwards. -/
    let inside (position part : Value) : Run (Except Signal Value × Value) := do
      let (r, part) ← walk go s assign rest part
      back (r, putAt v position part)
    let place (position : Value) : Run (Except Signal Value × Value) := do
      match isLast, assign with
      | true, some (operator, new) =>
        match assignAt v position operator new with
        | (.ok (), w) => back (.ok .unit, w)
        | (.error f, w) => back (.error (.fault f), w)
      | _, _ =>
        match itemAt v position with
        | .error f => back (.error (.fault f), v)
        | .ok part => if isLast then back (.ok part, v) else inside position part
    match step, v with
    | step, .unit =>
      if step.isSafe then back (.ok .unit, v)
      else
        match step with
        | .index _ p => place p
        | .property _ name =>
          let f := if isLast && assign.isSome then Fault.readOnlyProperty name v.kind
            else .unknownProperty name v.kind
          back (.error (.fault f), v)
        | .method _ name args =>
          let r ← Run.observe (callMethod go s v name args)
          match r with
          | .error e => back (.error e, v)
          | .ok (w, v) =>
            let (r, _) ← walk go s assign rest w
            back (r, v)
    | .index _ p, _ => place p
    | .property _ name, .map _ => place (.str name)
    | .property _ name, v =>
      match isLast, assign with
      | true, some _ => back (.error (.fault (.readOnlyProperty name v.kind)), v)
      | _, _ =>
        match Functions.property v name with
        | .error f => back (.error (.fault f), v)
        | .ok part =>
          let (r, _) ← walk go s assign rest part
          back (r, v)
    | .method _ name args, v =>
      let r ← Run.observe (callMethod go s v name args)
      match r with
      | .error e => back (.error e, v)
      | .ok (w, v) =>
        let (r, _) ← walk go s assign rest w
        back (r, v)

/-- A selection in a variable changes the variable; one in any other value changes nothing. -/
def evalChain (go : Go) (s : Surroundings) (root : Expr) (links : List Link)
    (assign : Option (Option String × Value)) : Run Value := do
  let steps ← prepare go s links
  match root with
  | .var name =>
    let m ← get
    match m.find? name with
    | none => Run.fail (.variableNotFound name)
    | some b =>
      if b.constant && assign.isSome then Run.fail (.constant name)
      let (r, v) ← walk go s assign steps b.value
      unless b.constant do
        modify fun m => { m with scope := Machine.replace name v m.scope }
      Run.resume r
  | .this =>
    match (← get).this with
    | none => Run.fail .notBound
    | some v =>
      let (r, v) ← walk go s assign steps v
      modify fun m => { m with this := some v }
      Run.resume r
  | e =>
    let v ← go (.expr s e)
    Run.resume (← walk go s assign steps v).1

/-- The value of an expression that has to be true or false. -/
def evalCondition (go : Go) (s : Surroundings) (e : Expr) : Run Bool := do
  match ← go (.expr s e) with
  | .bool b => return b
  | v => Run.fail (.kindMismatch v.kind "bool")

/-- Makes the captured variables shared. -/
def capture : List String → Run (List Value)
  | [] => pure []
  | name :: rest => do
    match (← get).share name with
    | none => Run.fail (.variableNotFound name)
    | some (v, m) =>
      set m
      return v :: (← capture rest)

def evalEntries (go : Go) (s : Surroundings) : List (String × Expr) → Run Value.Entries
  | [] => pure []
  | (k, e) :: rest => do
    let v ← go (.expr s e)
    return Value.setEntry (← evalEntries go s rest) k v

def evalExpr (go : Go) (s : Surroundings) : Expr → Run Value
  | .unit => pure .unit
  | .bool b => pure (.bool b)
  | .int n => pure (.int n)
  | .float d => pure (.float d)
  | .char c => pure (.char c)
  | .str t => pure (.str t)
  | .interpolated parts => do
    let vs ← evalAll go s parts
    return .str (String.join (vs.map Value.text))
  | .array items => do return .array (← evalAll go s items)
  | .map entries => do return .map (← evalEntries go s entries)
  | .var name => readVariable name
  | .qualified path name => readQualified s path name
  | .this => do
    match (← get).this with
    | some v => return v
    | none => Run.fail .notBound
  | .call path name args => evalCall go s path name args
  | .unary operator e => do Run.ofExcept (Operators.applyUnary operator (← go (.expr s e)))
  | .binary operator l r => do
    let a ← go (.expr s l)
    let b ← go (.expr s r)
    match operator with
    | "in" => Run.ofExcept (Operators.isIn a b)
    | "!in" =>
      match Operators.isIn a b with
      | .ok (.bool x) => return .bool !x
      | r => Run.ofExcept r
    | op => Run.ofExcept (Operators.apply op a b)
  | .and l r => do
    if ← evalCondition go s l then return .bool (← evalCondition go s r) else return .bool false
  | .or l r => do
    if ← evalCondition go s l then return .bool true else return .bool (← evalCondition go s r)
  | .coalesce l r => do
    match ← go (.expr s l) with
    | .unit => go (.expr s r)
    | v => return v
  | .chain root links => evalChain go s root links none
  | .closure params captures body => do
    let given ← capture captures
    return .function "anon" (captures ++ params) (some body) s.functions given
  | .stmt st => go (.stmt s st)

/-- What a round of a loop says: nothing to go on, or a value to stop with. -/
def roundOf (x : Run Value) : Run (Option Value) := do
  match ← Run.observe (Run.inBlock x) with
  | .ok _ | .error .again => return none
  | .error (.left v) => return some v
  | .error e => Run.resume (.error e)

/-- Rounds until one gives a value. -/
def rounds (round : Run (Option Value)) : Nat → Machine → Except Signal Value × Machine
  | 0, m => (.error (.fault .endless), m)
  | n + 1, m =>
    match round.run m with
    | (.ok none, m) => rounds round n m
    | (.ok (some v), m) => (.ok v, m)
    | (.error e, m) => (.error e, m)

/-- One round for each value, until one gives a value to stop with. -/
def roundsOver (round : Nat → Value → Run (Option Value)) :
    List Value → Nat → Machine → Except Signal Value × Machine
  | [], _, m => (.ok .unit, m)
  | v :: vs, i, m =>
    match (round i v).run m with
    | (.ok none, m) => roundsOver round vs (i + 1) m
    | (.ok (some w), m) => (.ok w, m)
    | (.error e, m) => (.error e, m)

/-- The values drawn from a value by a loop. -/
def valuesOf : Value → Except Fault (List Value)
  | .array xs => .ok xs
  | .str t => .ok (t.toList.map .char)
  | .range low high inclusive =>
    let n := (high - low + (if inclusive then 1 else 0)).toNat
    .ok ((List.range n).map fun (i : Nat) => .int (low + (i : Int)))
  | .bytes n => .ok (List.replicate n (.int 0))
  | _ => .error .notIterable

/-- Whether a value is the one a literal of a case stands for. -/
def isLiteralOf (v literal : Value) : Bool :=
  v.kind == literal.kind && v.equals literal

def isInRange (v literal : Value) : Bool :=
  match v, literal with
  | .int n, .range low high inclusive => low ≤ n && (n < high || (inclusive && n == high))
  | _, _ => false

/-- The body of the first case that fits, by `fits`, and whose guard holds. -/
def findCase (go : Go) (s : Surroundings) (fits : Value → Value → Bool) (v : Value) :
    List Case → Run (Option Stmt)
  | [] => pure none
  | .case literals guard body :: rest => do
    let ls ← evalAll go s literals
    if ls.any (fits v) then
      let holds ← match guard with
        | some e => evalCondition go s e
        | none => pure true
      if holds then return some body
    findCase go s fits v rest

/-- A module from the text of a script, which runs in a scope of its own. -/
def loadModule (go : Go) (s : Surroundings) (text : String) : Run Module := do
  match Program.ofText text with
  | .error why => Run.fail (.malformed why)
  | .ok program =>
    let program := program.simplify
    let m ← get
    set { m with scope := [], this := none, exports := [], imports := [] }
    let r ← Run.observe (runBody go { s with functions := program.functions } program.body)
    let after ← get
    set { after with scope := m.scope, this := m.this, exports := m.exports, imports := m.imports }
    match r with
    | .ok _ | .error (.finished _) =>
      let values := after.exports.reverse.filterMap fun (name, published) =>
        (after.find? name).map fun b => (published, after.content b.value)
      return .script program.functions values
    | .error e => Run.resume (.error e)

def execStmt (go : Go) (s : Surroundings) : Stmt → Run Value
  | .skip => pure .unit
  | .expr e => go (.expr s e)
  | .declare constant exported name e => do
    let v ← go (.expr s e)
    modify fun m => m.declare { name := name, value := v, constant := constant }
    if exported then modify fun m => { m with exports := (name, name) :: m.exports }
    return .unit
  | .assign operator (.var name) e => do
    let new ← go (.expr s e)
    let m ← get
    match m.find? name with
    | none => Run.fail (.variableNotFound name)
    | some b =>
      if b.constant then Run.fail (.constant name)
      let v ← Run.ofExcept (assigned operator (m.content b.value) new)
      modify fun m => m.assign name v
      return .unit
  | .assign operator .this e => do
    let new ← go (.expr s e)
    match (← get).this with
    | none => Run.fail .notBound
    | some old =>
      let v ← Run.ofExcept (assigned operator old new)
      modify fun m => { m with this := some v }
      return .unit
  | .assign operator target e => do
    let new ← go (.expr s e)
    match target with
    | .chain root links =>
      let _ ← evalChain go s root links (some (operator, new))
      return .unit
    | _ => return .unit
  | .block body => Run.inBlock (runBody go s body)
  | .branch c yes no => do
    let body := if ← evalCondition go s c then yes else no
    Run.inBlock (runBody go s body)
  | .switch subject cases otherwise => do
    let v ← go (.expr s subject)
    let found ← match ← findCase go s isLiteralOf v cases with
      | some body => pure (some body)
      | none => findCase go s isInRange v cases
    match found.or otherwise with
    | some body => Run.inBlock (go (.stmt s body))
    | none => return .unit
  | .loopWhile condition body =>
    let round : Run (Option Value) := do
      let going ← match condition with
        | some e => evalCondition go s e
        | none => pure true
      if going then roundOf (runBody go s body) else return some .unit
    ExceptT.mk (rounds round roundLimit)
  | .loopAfter body going condition =>
    let round : Run (Option Value) := do
      match ← roundOf (runBody go s body) with
      | some v => return some v
      | none =>
        let c ← evalCondition go s condition
        return if c == going then none else some .unit
    ExceptT.mk (rounds round roundLimit)
  | .loopOver name counter source body => do
    let v ← go (.expr s source)
    let vs ← Run.ofExcept (valuesOf v)
    let round (i : Nat) (v : Value) : Run (Option Value) := roundOf do
      if let some c := counter then
        modify fun m => m.declare { name := c, value := .int i }
      modify fun m => m.declare { name := name, value := v }
      runBody go s body
    ExceptT.mk (roundsOver round vs 0)
  | .leave e => do
    let v ← match e with
      | some e => go (.expr s e)
      | none => pure .unit
    throw (.left v)
  | .again => throw .again
  | .finish e => do
    let v ← match e with
      | some e => go (.expr s e)
      | none => pure .unit
    throw (.finished v)
  | .raise e => do
    let v ← match e with
      | some e => go (.expr s e)
      | none => pure .unit
    Run.fail (.thrown v)
  | .attempt body name handler => do
    match ← Run.observe (Run.inBlock (runBody go s body)) with
    | .error (.fault f) =>
      if f.isFinal then Run.fail f
      let r ← Run.observe (Run.inBlock do
        if let some n := name then
          modify fun m => m.declare { name := n, value := f.caught }
        runBody go s handler)
      match r with
      | .ok _ => return .unit
      | .error (.fault (.thrown .unit)) => Run.fail f
      | .error e => Run.resume (.error e)
    | r => Run.resume r
  | .importModule source name => do
    match ← go (.expr s source) with
    | .str path =>
      match s.scripts (Path.withExtension path "rhai") with
      | none => Run.fail (.moduleNotFound path)
      | some text =>
        let loaded ← match ← Run.observe (loadModule go s text) with
          | .error (.fault f) => Run.fail (.inModule path f)
          | r => Run.resume r
        if let some n := name then
          modify fun m => { m with imports := (n, loaded) :: m.imports }
        return .unit
    | v => Run.fail (.kindMismatch v.kind "string")
  | .exportName name published => do
    match (← get).find? name with
    | none => Run.fail (.variableNotFound name)
    | some _ =>
      modify fun m => { m with exports := (name, published) :: m.exports }
      return .unit

/-- Phrases nest less deeply than this in every text that fits a machine. -/
def nestingLimit : Nat := Nat.pow 2 40

/-- Runs a task. What one phrase does is given above by what the phrases inside it do; they may nest as deeply
as the first argument says. -/
def run : Nat → Go
  | 0, _ => Run.fail .endless
  | n + 1, .expr s e => evalExpr (run n) s e
  | n + 1, .stmt s st => execStmt (run n) s st

end Interpreter

end RuleService.Snippet
