namespace RuleService.Text

/-- The parts between the separators. The first argument counts the characters of a separator still
to be passed over; the part under way and the parts before it are given in reverse. -/
def splitChars (separator : List Char) : Nat → List Char → List (List Char) → List Char →
    List (List Char)
  | _, part, parts, [] => (part.reverse :: parts).reverse
  | skip + 1, part, parts, _ :: rest => splitChars separator skip part parts rest
  | 0, part, parts, c :: rest =>
    if separator.isPrefixOf (c :: rest) then
      splitChars separator (separator.length - 1) [] (part.reverse :: parts) rest
    else splitChars separator 0 (c :: part) parts rest

/-- The parts of a text between a separator that is not empty. -/
def split (separator text : String) : List String :=
  (splitChars separator.toList 0 [] [] text.toList).map String.ofList

/-- The lines of a text, without a carriage return at their end. -/
def lines (text : String) : List String :=
  (splitChars ['\n'] 0 [] [] text.toList).map fun line =>
    String.ofList (if line.getLast? == some '\r' then line.dropLast else line)

end RuleService.Text
