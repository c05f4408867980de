import RuleService.Snippet.Functions.Number
import RuleService.Snippet.Functions.Text
import RuleService.Snippet.Functions.Collection
import RuleService.Snippet.Machine

namespace RuleService.Snippet

namespace Functions

/-- The functions that call no other function. -/
def plain? (name : String) (args : List Value) : Answer :=
  numbers? name args <|> texts? name args <|> arrays? name args <|> maps? name args <|>
    general? name args

/-- The functions without further arguments that also are properties. -/
def propertyNames : List String :=
  ["len", "is_empty", "bytes", "chars", "floor", "ceiling", "round", "int", "fraction", "is_nan",
    "is_finite", "is_infinite", "is_odd", "is_even", "is_zero", "start", "end", "is_inclusive",
    "is_exclusive"]

/-- A property of a value that is no map. -/
def property (v : Value) (name : String) : Except Fault Value :=
  match v, name with
  | .function name _ _ _ _, "name" => .ok (.str name)
  | .function _ _ body _ _, "is_anonymous" => .ok (.bool body.isSome)
  | v, name =>
    let answer := if propertyNames.contains name then plain? name [v] else none
    match answer with
    | some r => r.map (·.value)
    | none => .error (.unknownProperty name v.kind)

/-- Runs over a list from left to right with a state, and stops when told so. -/
def scanItems {σ : Type} (f : σ → Nat → Value → Run (σ × Bool)) :
    List Value → Nat → σ → Machine → Except Signal σ × Machine
  | [], _, s, m => (.ok s, m)
  | v :: vs, i, s, m =>
    match (f s i v).run m with
    | (.ok (s, true), m) => scanItems f vs (i + 1) s m
    | (.ok (s, false), m) => (.ok s, m)
    | (.error e, m) => (.error e, m)

/-- Folds the items into a state; the step says whether to go on. -/
def overItems {σ : Type} (items : List Value) (init : σ)
    (f : σ → Nat → Value → Run (σ × Bool)) : Run σ :=
  ExceptT.mk fun m => scanItems f items 0 init m

/-- Whether a value is true; other kinds count as false. -/
def isTrue : Value → Bool
  | .bool b => b
  | _ => false

/-- Inserts into a sorted list, after the items that do not come later. -/
def insertSorted (later : Value → Value → Run Bool) (v : Value) : List Value → Run (List Value)
  | [] => pure [v]
  | w :: ws => do
    if ← later w v then return v :: w :: ws
    return w :: (← insertSorted later v ws)

/-- The functions that call a function on the items of an array or the entries of a map. `call`
passes an item, with its position or key where the function takes one. -/
def calling? (call : Value → List Value → Value → Run Value) (name : String)
    (args : List Value) : Option (Run Reply) :=
  let item (f v : Value) (i : Nat) : Run Value := call f [v] (.int i)
  let kept (f : Value) (xs : List Value) (wanted : Bool) : Run (List Value × List Value) := do
    let (ins, outs) ← overItems xs (([], []) : List Value × List Value) fun (ins, outs) i v => do
      let r := isTrue (← item f v i)
      return (if r == wanted then (v :: ins, outs) else (ins, v :: outs), true)
    return (ins.reverse, outs.reverse)
  let keptEntries (f : Value) (es : Value.Entries) : Run (Value.Entries × Value.Entries) := do
    let rec go : Value.Entries → Run (Value.Entries × Value.Entries)
      | [] => pure ([], [])
      | (k, v) :: rest => do
        let r := isTrue (← call f [.str k, v] .unit)
        let (ins, outs) ← go rest
        return if r then ((k, v) :: ins, outs) else (ins, (k, v) :: outs)
    go es
  match name, args with
  | "map", [.array xs, f@(.function ..)] => some do
    let ys ← overItems xs ([] : List Value) fun acc i v => do
      return ((← item f v i) :: acc, true)
    return { value := .array ys.reverse }
  | "filter", [.array xs, f@(.function ..)] => some do
    return { value := .array (← kept f xs true).1 }
  | "retain", [.array xs, f@(.function ..)] => some do
    let (ins, outs) ← kept f xs true
    return { value := .array outs, target := some (.array ins) }
  | "drain", [.array xs, f@(.function ..)] => some do
    let (ins, outs) ← kept f xs true
    return { value := .array ins, target := some (.array outs) }
  | "for_each", [.array xs, f@(.function ..)] => some do
    overItems xs () fun _ i v => do
      let _ ← item f v i
      return ((), true)
    return { value := .unit }
  | "find", [.array xs, f@(.function ..)] => some do
    let r ← overItems xs Value.unit fun _ i v => do
      return if isTrue (← item f v i) then (v, false) else (.unit, true)
    return { value := r }
  | "find_map", [.array xs, f@(.function ..)] => some do
    let r ← overItems xs Value.unit fun _ i v => do
      match ← item f v i with
      | .unit => return (.unit, true)
      | w => return (w, false)
    return { value := r }
  | "index_of", [.array xs, f@(.function ..)] => some do
    let r ← overItems xs (-1 : Int) fun _ i v => do
      return if isTrue (← item f v i) then ((i : Int), false) else (-1, true)
    return { value := .int r }
  | "some", [.array xs, f@(.function ..)] => some do
    let r ← overItems xs false fun _ i v => do
      let b := isTrue (← item f v i)
      return (b, !b)
    return { value := .bool r }
  | "all", [.array xs, f@(.function ..)] => some do
    let r ← overItems xs true fun _ i v => do
      let b := isTrue (← item f v i)
      return (b, b)
    return { value := .bool r }
  | "reduce", [.array xs, f@(.function ..)] => some do
    let r ← overItems xs Value.unit fun acc i v => do
      return (← call f [acc, v] (.int i), true)
    return { value := r }
  | "reduce", [.array xs, f@(.function ..), init] => some do
    let r ← overItems xs init fun acc i v => do
      return (← call f [acc, v] (.int i), true)
    return { value := r }
  | "reduce_rev", [.array xs, f@(.function ..)] => some do
    let r ← overItems xs.reverse Value.unit fun acc i v => do
      return (← call f [acc, v] (.int (xs.length - 1 - i : Nat)), true)
    return { value := r }
  | "reduce_rev", [.array xs, f@(.function ..), init] => some do
    let r ← overItems xs.reverse init fun acc i v => do
      return (← call f [acc, v] (.int (xs.length - 1 - i : Nat)), true)
    return { value := r }
  | "zip", [.array xs, .array ys, f@(.function ..)] => some do
    let r ← overItems xs (([], ys) : List Value × List Value) fun (acc, ys) i v => do
      match ys with
      | [] => return ((acc, []), false)
      | y :: rest => return (((← call f [v, y] (.int i)) :: acc, rest), true)
    return { value := .array r.1.reverse }
  | "sort", [.array xs, f@(.function ..)] => some do
    let later (a b : Value) : Run Bool := do
      match ← call f [a, b] .unit with
      | .int n => return 0 < n
      | .bool b => return !b
      | _ => return false
    let ys ← xs.foldlM (fun acc v => insertSorted later v acc) []
    return { value := .unit, target := some (.array ys) }
  | "filter", [.map es, f@(.function ..)] => some do
    return { value := .map (← keptEntries f es).1 }
  | "retain", [.map es, f@(.function ..)] => some do
    let (ins, outs) ← keptEntries f es
    return { value := .map outs, target := some (.map ins) }
  | "drain", [.map es, f@(.function ..)] => some do
    let (ins, outs) ← keptEntries f es
    return { value := .map ins, target := some (.map outs) }
  | _, _ => none

end Functions

end RuleService.Snippet
