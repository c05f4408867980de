import RuleService.Snippet.Operators

namespace RuleService.Snippet

structure Reply where
  value : Value
  target : Option Value := none
  deriving Inhabited

/-- The answer of a table of functions: none if it has no such function for such arguments. -/
abbrev Answer := Option (Except Fault Reply)

namespace Reply

def give (v : Value) : Answer := some (.ok { value := v })

/-- A function that only changes its first argument. -/
def become (v : Value) : Answer := some (.ok { value := .unit, target := some v })

/-- A function that changes its first argument and has a value. -/
def giveAndBecome (v target : Value) : Answer := some (.ok { value := v, target := some target })

def fail (f : Fault) : Answer := some (.error f)

end Reply

/-- The place a signed index stands for, if it is within `size`; negative ones count from the end. -/
def placeOf (size : Nat) (index : Int) : Option Nat :=
  if 0 ≤ index then (if index.toNat < size then some index.toNat else none)
  else if index.natAbs ≤ size then some (size - index.natAbs) else none

/-- The start and length of a part, kept within `size`; a negative start counts from the end. -/
def partOf (size : Nat) (start len : Int) : Nat × Nat :=
  let from_ :=
    if start < 0 then size - min size start.natAbs
    else min size start.toNat
  (from_, if len ≤ 0 then 0 else min len.toNat (size - from_))

/-- The start and length that a range selects. -/
def rangePart (size : Nat) (low high : Int) (inclusive : Bool) : Nat × Nat :=
  let start := max low 0
  let stop := max high start
  partOf size start (stop - start + (if inclusive then 1 else 0))

end RuleService.Snippet
