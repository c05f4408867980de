namespace RuleService.Text

/-- The characters that carry the property White_Space. -/
def isBlank (c : Char) : Bool :=
  let n := c.toNat
  (9 ≤ n && n ≤ 13) || n == 0x20 || n == 0x85 || n == 0xA0 || n == 0x1680 ||
    (0x2000 ≤ n && n ≤ 0x200A) || n == 0x2028 || n == 0x2029 || n == 0x202F || n == 0x205F ||
    n == 0x3000

/-- Drops the blanks at both ends. -/
def trimBlanks (cs : List Char) : List Char :=
  ((cs.dropWhile isBlank).reverse.dropWhile isBlank).reverse

def trim (s : String) : String :=
  String.ofList (trimBlanks s.toList)

/-- The pieces between the blanks of a text. -/
def cutAtBlanks : List Char → List (List Char)
  | [] => [[]]
  | c :: cs =>
    if isBlank c then [] :: cutAtBlanks cs
    else match cutAtBlanks cs with
      | [] => [[c]]
      | piece :: rest => (c :: piece) :: rest

/-- The blank-separated words of a text, none of them empty. -/
def words (cs : List Char) : List (List Char) := (cutAtBlanks cs).filter (! ·.isEmpty)

end RuleService.Text
