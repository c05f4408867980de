import RuleService.Double.Shortest

namespace RuleService.Double

/-- Documents: a point always, an exponent from 1e16 up and below 1e-5, no text for non-numbers. -/
def documentLayout : Layout :=
  { scientific := some (-5, 16), keepPoint := true, plus := "+", nan := "null", infinity := "null" }

/-- Digits only, whole numbers without a point. -/
def plainLayout : Layout :=
  { scientific := none, keepPoint := false, plus := "", nan := "NaN", infinity := "inf" }

/-- The quoting form of the snippet language: a point always, an exponent from 1e16 up and below 1e-4. -/
def quotedLayout : Layout :=
  { scientific := some (-4, 16), keepPoint := true, plus := "", nan := "NaN", infinity := "inf" }

/-- Always with an exponent. -/
def exponentLayout : Layout :=
  { scientific := some (1, 0), keepPoint := false, plus := "", nan := "NaN", infinity := "inf" }

/-- Positional with a point kept on whole numbers. -/
def pointLayout : Layout :=
  { scientific := none, keepPoint := true, plus := "", nan := "NaN", infinity := "inf" }

/-- Display text: a whole number by all its digits, any other positionally by the fewest. -/
def display (d : Double) : String :=
  match d.truncate? with
  | some n =>
    if d.isWhole then (if d.isNegative then "-" else "") ++ String.ofList (digitsOf n.natAbs)
    else plainLayout.render d
  | none => plainLayout.render d

/-- How snippets turn a number into text: positional with a point between 1e-13 and 1e13, and with
an exponent outside. A zero has no sign. -/
def printed (d : Double) : String :=
  if d.isZero then "0.0"
  else
    let size := d.abs
    let large := ofInt 10000000000000
    let small := ofRatio false 1 10000000000000
    if !d.isFinite then plainLayout.render d
    else if large.lessThan size || size.lessThan small then exponentLayout.render d
    else pointLayout.render d

end RuleService.Double
