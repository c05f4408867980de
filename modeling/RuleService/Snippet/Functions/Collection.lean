import RuleService.Snippet.Functions.Reply
import RuleService.Json.Printer

namespace RuleService.Snippet

namespace Functions

/-- The position of the first item equal to a value, at or after `start`. -/
def itemIndex (v : Value) (position : Nat) : List Value → Option Nat
  | [] => none
  | w :: ws => if w.equals v then some position else itemIndex v (position + 1) ws

def itemIndexFrom (items : List Value) (v : Value) (start : Int) : Value :=
  let from_ :=
    if start < 0 then items.length - min items.length start.natAbs
    else min items.length start.toNat
  ((itemIndex v from_ (items.drop from_)).elim (-1 : Int) fun n => (n : Int)) |> .int

/-- Drops the items equal to the one before them. -/
def dropRepeats : List Value → List Value
  | [] => []
  | [v] => [v]
  | v :: w :: rest => if v.equals w then dropRepeats (v :: rest) else v :: dropRepeats (w :: rest)
termination_by items => items.length

def setAt (items : List Value) (index : Int) (v : Value) : Except Fault (List Value) :=
  match placeOf items.length index with
  | some i => .ok (items.set i v)
  | none => .error (.outOfBounds .array items.length index)

/-- Whether the first value comes before the second in the natural order of their kind. -/
def precedes? : Value → Value → Option Bool
  | .int a, .int b => some (a ≤ b)
  | .float a, .float b => some (a.atMost b)
  | .str a, .str b => some (!(b < a))
  | .char a, .char b => some (a ≤ b)
  | .bool a, .bool b => some (!a || b)
  | .unit, .unit => some true
  | _, _ => none

/-- Sorts items of one kind; none when there are others. -/
def sorted? (items : List Value) : Option (List Value) :=
  match items with
  | [] => some []
  | v :: _ =>
    if items.all fun w => (precedes? v w).isSome then
      some (items.mergeSort fun a b => (precedes? a b).getD true)
    else none

/-- Functions whose first argument is an array. -/
def arrays? (name : String) (args : List Value) : Answer :=
  match name, args with
  | "len", [.array xs] => Reply.give (.int xs.length)
  | "is_empty", [.array xs] => Reply.give (.bool xs.isEmpty)
  | "push", [.array xs, v] => Reply.become (.array (xs ++ [v]))
  | "append", [.array xs, .array ys] => Reply.become (.array (xs ++ ys))
  | "concat", [.array xs, .array ys] => Reply.give (.array (xs ++ ys))
  | "insert", [.array xs, .int n, v] =>
    let (i, _) := partOf xs.length n 0
    Reply.become (.array (xs.take i ++ v :: xs.drop i))
  | "pop", [.array xs] =>
    match xs.reverse with
    | [] => Reply.give .unit
    | v :: rest => Reply.giveAndBecome v (.array rest.reverse)
  | "shift", [.array xs] =>
    match xs with
    | [] => Reply.give .unit
    | v :: rest => Reply.giveAndBecome v (.array rest)
  | "remove", [.array xs, .int n] =>
    match placeOf xs.length n with
    | some i => Reply.giveAndBecome (xs.getD i .unit) (.array (xs.eraseIdx i))
    | none => Reply.give .unit
  | "clear", [.array _] => Reply.become (.array [])
  | "get", [.array xs, .int n] =>
    Reply.give (((placeOf xs.length n).bind fun i => xs[i]?).getD .unit)
  | "set", [.array xs, .int n, v] =>
    match setAt xs n v with
    | .ok ys => Reply.become (.array ys)
    | .error f => Reply.fail f
  | "pad", [.array xs, .int n, v] =>
    Reply.become (.array (xs ++ List.replicate (n.toNat - xs.length) v))
  | "truncate", [.array xs, .int n] => Reply.become (.array (xs.take n.toNat))
  | "chop", [.array xs, .int n] => Reply.become (.array (xs.drop (xs.length - n.toNat)))
  | "reverse", [.array xs] => Reply.become (.array xs.reverse)
  | "contains", [.array xs, v] => Reply.give (.bool (xs.any fun w => w.equals v))
  | "index_of", [.array xs, v] => Reply.give (itemIndexFrom xs v 0)
  | "index_of", [.array xs, v, .int n] => Reply.give (itemIndexFrom xs v n)
  | "dedup", [.array xs] => Reply.become (.array (dropRepeats xs))
  | "extract", [.array xs, .int n] =>
    let (i, count) := partOf xs.length n xs.length
    Reply.give (.array ((xs.drop i).take count))
  | "extract", [.array xs, .int n, .int len] =>
    let (i, count) := partOf xs.length n len
    Reply.give (.array ((xs.drop i).take count))
  | "extract", [.array xs, .range low high inclusive] =>
    let (i, count) := rangePart xs.length low high inclusive
    Reply.give (.array ((xs.drop i).take count))
  | "split", [.array xs, .int n] =>
    let (i, _) := partOf xs.length n 0
    Reply.giveAndBecome (.array (xs.drop i)) (.array (xs.take i))
  | "splice", [.array xs, .int n, .int len, .array ys] =>
    let (i, count) := partOf xs.length n len
    Reply.become (.array (xs.take i ++ ys ++ xs.drop (i + count)))
  | "drain", [.array xs, .int n, .int len] =>
    let (i, count) := partOf xs.length n len
    Reply.giveAndBecome (.array ((xs.drop i).take count))
      (.array (xs.take i ++ xs.drop (i + count)))
  | "retain", [.array xs, .int n, .int len] =>
    let (i, count) := partOf xs.length n len
    Reply.giveAndBecome (.array (xs.take i ++ xs.drop (i + count)))
      (.array ((xs.drop i).take count))
  | "sort", [.array xs] =>
    match sorted? xs with
    | some ys => Reply.become (.array ys)
    | none => Reply.fail (.kindMismatch "" "elements of one kind")
  | "len", [.bytes n] => Reply.give (.int n)
  | "is_empty", [.bytes n] => Reply.give (.bool (n == 0))
  | _, _ => none

/-- Functions whose first argument is a map. -/
def maps? (name : String) (args : List Value) : Answer :=
  match name, args with
  | "len", [.map es] => Reply.give (.int es.length)
  | "is_empty", [.map es] => Reply.give (.bool es.isEmpty)
  | "contains", [.map es, .str k] => Reply.give (.bool (Value.entry? es k).isSome)
  | "keys", [.map es] => Reply.give (.array (es.map fun e => .str e.1))
  | "values", [.map es] => Reply.give (.array (es.map (·.2)))
  | "get", [.map es, .str k] => Reply.give ((Value.entry? es k).getD .unit)
  | "set", [.map es, .str k, v] => Reply.become (.map (Value.setEntry es k v))
  | "remove", [.map es, .str k] =>
    match Value.entry? es k with
    | some v => Reply.giveAndBecome v (.map (Value.removeEntry es k))
    | none => Reply.give .unit
  | "clear", [.map _] => Reply.become (.map [])
  | "mixin", [.map es, .map fs] => Reply.become (.map (Operators.merge es fs))
  | "fill_with", [.map es, .map fs] =>
    Reply.become (.map (Operators.merge fs es))
  | "to_json", [.map es] =>
    match (Value.map es).toJson? with
    | some j => Reply.give (.str j.render)
    | none => none
  | _, _ => none

/-- Functions on any value. -/
def general? (name : String) (args : List Value) : Answer :=
  match name, args with
  | "to_string", [v] => Reply.give (.str v.text)
  | "to_debug", [v] => Reply.give (.str v.debugText)
  | "blob", [] => Reply.give (.bytes 0)
  | "blob", [.int n] => Reply.give (.bytes n.toNat)
  | _, _ => none

end Functions

end RuleService.Snippet
