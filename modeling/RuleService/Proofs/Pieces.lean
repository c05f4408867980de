import RuleService.Placeholder

namespace RuleService.Piece

/-- The characters of pieces as they stood. -/
def chars (pieces : List Piece) : List Char := pieces.flatMap (·.source.toList)

theorem chars_plainOf (reversed : List Char) : chars (plainOf reversed) = reversed.reverse := by
  cases reversed <;> simp [plainOf, chars, source]

theorem chars_code (text : String) (pieces : List Piece) :
    chars (code text :: pieces) = '$' :: '\x7b' :: text.toList ++ '\x7d' :: chars pieces := by
  simp [chars, source]

theorem chars_append (before after : List Piece) :
    chars (before ++ after) = chars before ++ chars after := by
  simp [chars]

private theorem chars_both :
    (∀ plain rest, chars (outside plain rest) = plain.reverse ++ rest) ∧
    ∀ plain code rest, chars (inside plain code rest) =
      plain.reverse ++ '$' :: '\x7b' :: code.reverse ++ rest := by
  refine outside.mutual_induct
    (fun plain rest => chars (outside plain rest) = plain.reverse ++ rest)
    (fun plain code rest => chars (inside plain code rest) =
      plain.reverse ++ '$' :: '\x7b' :: code.reverse ++ rest) ?_ ?_ ?_ ?_ ?_ ?_ ?_
  · intro plain
    simp [outside, chars_plainOf]
  · intro plain rest ih
    simp [outside, ih]
  · intro plain c rest other ih
    rw [outside.eq_3 plain c rest other, ih]
    simp
  · intro plain code
    simp [inside, chars_plainOf]
  · intro plain code rest ih
    simp [inside, chars_append, chars_plainOf, chars_code, ih]
  · intro plain code rest ih
    rw [inside, ih]
    simp
  · intro plain code c rest notClosed notBroken ih
    rw [inside.eq_4 plain code c rest notClosed notBroken, ih]
    simp

theorem chars_ofText (text : String) : chars (ofText text) = text.toList :=
  chars_both.1 [] text.toList

/-- The code of a placeholder stands in the text, between its braces. -/
theorem placeholder_literal {text code : String} (placed : .code code ∈ ofText text) :
    ∃ before after, text = before ++ "$\x7b" ++ code ++ "\x7d" ++ after := by
  obtain ⟨before, after, split⟩ := List.append_of_mem placed
  refine ⟨String.ofList (chars before), String.ofList (chars after), String.toList_injective ?_⟩
  rw [← chars_ofText, split, chars_append, chars_code]
  simp

end RuleService.Piece
