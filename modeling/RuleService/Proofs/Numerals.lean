import Mathlib.Data.List.DropRight
import Mathlib.Data.Nat.Digits.Defs
import RuleService.Proofs.Rounding
import RuleService.Text.Blank

namespace RuleService

/-- What may stand before digits. -/
inductive Sign where
  | absent
  | plus
  | minus
  deriving DecidableEq

namespace Sign

def chars : Sign → List Char
  | absent => []
  | plus => ['+']
  | minus => ['-']

def factor : Sign → Int
  | minus => -1
  | _ => 1

end Sign

/-- The characters of decimal digits. -/
def digitChars (ds : List (Fin 10)) : List Char := ds.map fun d => Nat.digitChar d.val

/-- The natural number that decimal digits write. -/
def digitsValue (ds : List (Fin 10)) : Nat := Nat.ofDigits 10 (ds.reverse.map (·.val))

/-- The exponent of a numeral: a letter, and an integer with at least one digit. -/
structure Exponent where
  letter : Char
  sign : Sign
  digits : List (Fin 10)
  isLetter : letter = 'e' ∨ letter = 'E'
  hasDigit : digits ≠ []

namespace Exponent

def chars (x : Exponent) : List Char := x.letter :: (x.sign.chars ++ digitChars x.digits)

def value (x : Exponent) : Int := x.sign.factor * digitsValue x.digits

end Exponent

/-- A decimal numeral: digits, perhaps with a sign, a point and an exponent. -/
structure Numeral where
  sign : Sign
  whole : List (Fin 10)
  /-- The digits behind the point, if there is one. -/
  fraction : Option (List (Fin 10))
  exponent : Option Exponent
  hasDigit : whole ++ fraction.getD [] ≠ []

namespace Numeral

/-- The numeral as it is written. -/
def chars (n : Numeral) : List Char :=
  n.sign.chars ++ (digitChars n.whole ++
    ((n.fraction.elim [] fun ds => '.' :: digitChars ds) ++ n.exponent.elim [] Exponent.chars))

/-- The ratio that a numeral stands for, without its sign. -/
def magnitude (n : Numeral) : ℚ :=
  digitsValue (n.whole ++ n.fraction.getD []) *
    10 ^ (n.exponent.elim 0 Exponent.value - (n.fraction.getD []).length)

def value (n : Numeral) : ℚ := n.sign.factor * n.magnitude

/-- A text that holds a numeral and otherwise only blanks around it. -/
def StandsIn (n : Numeral) (text : String) : Prop :=
  ∃ before after, (∀ c ∈ before ++ after, Text.isBlank c = true) ∧
    text.toList = before ++ n.chars ++ after

end Numeral

theorem isDigit_of_mem {ds : List (Fin 10)} {c : Char} (listed : c ∈ digitChars ds) :
    Double.isDigit c = true := by
  obtain ⟨d, -, rfl⟩ := List.mem_map.mp listed
  have digit : ∀ d : Fin 10, Double.isDigit (Nat.digitChar d.val) = true := by decide
  exact digit d

theorem natOfDigits_digitChars (ds : List (Fin 10)) :
    Double.natOfDigits (digitChars ds) = digitsValue ds := by
  have digit : ∀ d : Fin 10, (Nat.digitChar d.val).toNat - '0'.toNat = d.val := by decide
  induction ds using List.reverseRecOn with
  | nil => rfl
  | append_singleton ds d ih =>
    unfold Double.natOfDigits digitChars at ih ⊢
    rw [List.map_append, List.foldl_append, ih]
    simp only [List.map_cons, List.map_nil, List.foldl_cons, List.foldl_nil, digit, digitsValue,
      List.reverse_append, List.reverse_cons, List.reverse_nil, List.nil_append,
      List.cons_append, Nat.ofDigits_cons]
    omega

/-- Digits are read up to the first other character. -/
theorem span_digitChars (ds : List (Fin 10)) {rest : List Char}
    (stops : ∀ c ∈ rest.head?, Double.isDigit c = false) :
    (digitChars ds ++ rest).takeWhile Double.isDigit = digitChars ds ∧
      (digitChars ds ++ rest).dropWhile Double.isDigit = rest := by
  have none : rest.takeWhile Double.isDigit = [] ∧ rest.dropWhile Double.isDigit = rest := by
    cases rest with
    | nil => exact ⟨rfl, rfl⟩
    | cons c rest =>
      have stop : Double.isDigit c = false := stops c rfl
      simp [stop]
  rw [List.takeWhile_append_of_pos fun c => isDigit_of_mem,
    List.dropWhile_append_of_pos fun c => isDigit_of_mem, none.1, none.2, List.append_nil]
  exact ⟨rfl, rfl⟩

theorem takeSign_chars (sign : Sign) {body : List Char}
    (unsigned : ∀ c ∈ body.head?, c ≠ '+' ∧ c ≠ '-') :
    Double.takeSign (sign.chars ++ body) = (sign == .minus, body) := by
  cases sign with
  | absent =>
    cases body with
    | nil => rfl
    | cons c body =>
      obtain ⟨plus, minus⟩ := unsigned c rfl
      simp [Sign.chars, Double.takeSign, plus, minus]
  | plus => rfl
  | minus => rfl

theorem Exponent.part (x : Exponent) : Double.exponentPart? x.chars = some x.value := by
  obtain ⟨letter, sign, digits, isLetter, hasDigit⟩ := x
  have unsigned : ∀ c ∈ (digitChars digits).head?, c ≠ '+' ∧ c ≠ '-' := by
    intro c first
    have digit := isDigit_of_mem (List.mem_of_mem_head? first)
    constructor <;> rintro rfl <;> cases digit
  have some : (digitChars digits).isEmpty = false := by simpa [digitChars] using hasDigit
  have all : (digitChars digits).all Double.isDigit = true :=
    List.all_eq_true.mpr fun c => isDigit_of_mem
  have known : (letter == 'e' || letter == 'E') = true := by simpa using isLetter
  simp only [chars, Double.exponentPart?, known, takeSign_chars sign unsigned, some, all,
    natOfDigits_digitChars, value]
  cases sign <;> simp [Sign.factor]

namespace Numeral

variable (n : Numeral)

/-- The characters behind the whole digits. -/
def tail : List Char :=
  (n.fraction.elim [] fun ds => '.' :: digitChars ds) ++ n.exponent.elim [] Exponent.chars

theorem exponent_part :
    Double.exponentPart? (n.exponent.elim [] Exponent.chars) = some (n.exponent.elim 0 Exponent.value) := by
  cases n.exponent with
  | none => rfl
  | some x => exact x.part

/-- An exponent begins with a letter, and so neither with a digit nor with a point. -/
theorem head_exponent : ∀ c ∈ (n.exponent.elim [] Exponent.chars).head?,
    Double.isDigit c = false ∧ c ≠ '.' := by
  intro c first
  cases hx : n.exponent with
  | none => simp [hx] at first
  | some x =>
    obtain rfl : x.letter = c := by simpa [hx, Exponent.chars] using first
    rcases x.isLetter with eq | eq <;> rw [eq] <;> decide

theorem head_tail : ∀ c ∈ n.tail.head?, Double.isDigit c = false := by
  intro c first
  cases hf : n.fraction with
  | none => exact (n.head_exponent c (by simpa [tail, hf] using first)).1
  | some ds =>
    obtain rfl : '.' = c := by simpa [tail, hf] using first
    rfl

/-- Behind its sign a numeral begins with a digit or a point. -/
theorem head_body {c : Char} (first : c ∈ (digitChars n.whole ++ n.tail).head?) :
    (∃ d : Fin 10, c = Nat.digitChar d.val) ∨ c = '.' := by
  cases hw : n.whole with
  | cons d ds => exact .inl ⟨d, by simpa [hw, digitChars, eq_comm] using first⟩
  | nil =>
    have hasDigit := n.hasDigit
    cases hf : n.fraction with
    | none => simp [hw, hf] at hasDigit
    | some ds => exact .inr (by simpa [hw, hf, digitChars, tail, eq_comm] using first)

theorem body_unsigned : ∀ c ∈ (digitChars n.whole ++ n.tail).head?, c ≠ '+' ∧ c ≠ '-' := by
  have digit : ∀ d : Fin 10, Nat.digitChar d.val ≠ '+' ∧ Nat.digitChar d.val ≠ '-' := by decide
  intro c first
  rcases n.head_body first with ⟨d, rfl⟩ | rfl
  · exact digit d
  · decide

/-- A numeral is none of the words that are numbers. -/
theorem not_word (word : String) {x : Char} (begins : word.toList.head? = some x)
    (letter : x = 'i' ∨ x = 'n') :
    (String.ofList ((digitChars n.whole ++ n.tail).map Char.toLower) == word) = false := by
  have digit : ∀ d : Fin 10, (Nat.digitChar d.val).toLower ≠ 'i' ∧
      (Nat.digitChar d.val).toLower ≠ 'n' := by decide
  rw [beq_eq_false_iff_ne]
  rintro rfl
  rw [String.toList_ofList, List.head?_map, Option.map_eq_some_iff] at begins
  obtain ⟨c, first, rfl⟩ := begins
  rcases n.head_body first with ⟨d, rfl⟩ | rfl
  · have := digit d
    tauto
  · revert letter
    decide

/-- A numeral is read as the decimal that it writes. -/
theorem parseChars?_chars : Double.parseChars? n.chars =
    some (Double.ofDecimal (n.sign == .minus) (digitsValue (n.whole ++ n.fraction.getD []))
      (n.exponent.elim 0 Exponent.value - (n.fraction.getD []).length)) := by
  have shape : n.chars = n.sign.chars ++ (digitChars n.whole ++ n.tail) := rfl
  have inf := n.not_word "inf" rfl (.inl rfl)
  have infinity := n.not_word "infinity" rfl (.inl rfl)
  have nan := n.not_word "nan" rfl (.inr rfl)
  obtain ⟨whole, rest⟩ := span_digitChars n.whole n.head_tail
  rw [shape, Double.parseChars?, takeSign_chars n.sign n.body_unsigned]
  simp only [inf, infinity, nan, whole, rest]
  cases hf : n.fraction with
  | some ds =>
    have point : n.tail = '.' :: (digitChars ds ++ n.exponent.elim [] Exponent.chars) := by
      simp [tail, hf]
    obtain ⟨digits, behind⟩ := span_digitChars ds fun c first => (n.head_exponent c first).1
    have hasDigit : ((digitChars n.whole).isEmpty && (digitChars ds).isEmpty) = false := by
      simpa [digitChars, hf] using n.hasDigit
    have joined : digitChars n.whole ++ digitChars ds = digitChars (n.whole ++ ds) :=
      List.map_append.symm
    have count : (digitChars ds).length = ds.length := List.length_map ..
    simp [point, digits, behind, hasDigit, n.exponent_part, joined, natOfDigits_digitChars, count]
  | none =>
    have hasDigit : digitChars n.whole ≠ [] := by simpa [digitChars, hf] using n.hasDigit
    cases hx : n.exponent with
    | none =>
      have ended : n.tail = [] := by simp [tail, hf, hx]
      simp [ended, hasDigit, natOfDigits_digitChars, Double.exponentPart?]
    | some x =>
      have part := x.part
      have behind : n.tail = x.chars := by simp [tail, hf, hx]
      rcases x.isLetter with letter | letter
      all_goals
        rw [Exponent.chars, letter] at part behind
        simp [behind, part, hasDigit, natOfDigits_digitChars]

theorem mem_chars {c : Char} (listed : c ∈ n.chars) :
    (∃ d : Fin 10, c = Nat.digitChar d.val) ∨ c ∈ ['+', '-', '.', 'e', 'E'] := by
  have digits (ds : List (Fin 10)) (listed : c ∈ digitChars ds) :
      ∃ d : Fin 10, c = Nat.digitChar d.val := by
    obtain ⟨d, -, rfl⟩ := List.mem_map.mp listed
    exact ⟨d, rfl⟩
  have sign (s : Sign) (listed : c ∈ s.chars) : c ∈ ['+', '-', '.', 'e', 'E'] := by
    cases s <;> simp_all [Sign.chars]
  simp only [chars, List.mem_append] at listed
  rcases listed with hs | hw | hf | hx
  · exact .inr (sign _ hs)
  · exact .inl (digits _ hw)
  · cases fraction : n.fraction with
    | none => simp [fraction] at hf
    | some ds =>
      rw [fraction, Option.elim_some, List.mem_cons] at hf
      rcases hf with rfl | hd
      · exact .inr (by simp)
      · exact .inl (digits ds hd)
  · cases exponent : n.exponent with
    | none => simp [exponent] at hx
    | some x =>
      rw [exponent, Option.elim_some, Exponent.chars, List.mem_cons, List.mem_append] at hx
      rcases hx with rfl | hs | hd
      · exact .inr (by rcases x.isLetter with letter | letter <;> simp [letter])
      · exact .inr (sign _ hs)
      · exact .inl (digits _ hd)

/-- What holds of the characters that numerals are written with holds of those of a numeral. -/
theorem forall_chars {P : Char → Prop} (digit : ∀ d : Fin 10, P (Nat.digitChar d.val))
    (mark : ∀ c ∈ ['+', '-', '.', 'e', 'E'], P c) : ∀ c ∈ n.chars, P c := by
  intro c listed
  rcases n.mem_chars listed with ⟨d, rfl⟩ | marks
  · exact digit d
  · exact mark c marks

end Numeral

theorem trimBlanks_around {before cs after : List Char}
    (blank : ∀ c ∈ before ++ after, Text.isBlank c = true) (bare : ∀ c ∈ cs, Text.isBlank c = false) :
    Text.trimBlanks (before ++ cs ++ after) = cs := by
  have all : ∀ c ∈ before, Text.isBlank c = true := fun c h => blank c (List.mem_append_left _ h)
  have all' : ∀ c ∈ after.reverse, Text.isBlank c = true := fun c h =>
    blank c (List.mem_append_right _ (List.mem_reverse.mp h))
  have stops (l rest : List Char) (bare : ∀ c ∈ l, Text.isBlank c = false) (some : l ≠ []) :
      (l ++ rest).dropWhile Text.isBlank = l ++ rest := by
    cases l with
    | nil => exact absurd rfl some
    | cons c l => simp [bare c (by simp)]
  by_cases none : cs = []
  · subst none
    have dropped : (before ++ [] ++ after).dropWhile Text.isBlank = [] := by
      rw [List.append_nil]
      exact List.dropWhile_eq_nil_iff.mpr blank
    rw [Text.trimBlanks, dropped]
    rfl
  · have bare' : ∀ c ∈ cs.reverse, Text.isBlank c = false := fun c h => bare c (List.mem_reverse.mp h)
    have kept := stops cs.reverse [] bare' (by simpa using none)
    rw [List.append_nil] at kept
    rw [Text.trimBlanks, List.append_assoc, List.dropWhile_append_of_pos all, stops cs after bare none,
      List.reverse_append, List.dropWhile_append_of_pos all', kept, List.reverse_reverse]

namespace Numeral

variable {n : Numeral} {text : String}

/-- A text that holds a numeral is read as what its ratio is rounded to. -/
theorem StandsIn.parse? (held : n.StandsIn text) : ∃ d, Double.parse? (Text.trim text) = some d ∧
    Double.Rounded (n.sign == .minus) n.magnitude d := by
  obtain ⟨before, after, blank, split⟩ := held
  have bare := n.forall_chars (P := fun c => Text.isBlank c = false) (by decide)
    (by simp [Text.isBlank])
  have trimmed : (Text.trim text).toList = n.chars := by
    rw [Text.trim, String.toList_ofList, split, trimBlanks_around blank bare]
  rw [Double.parse?, trimmed]
  exact ⟨_, n.parseChars?_chars, Double.ofDecimal_rounded ..⟩

/-- A text that holds a numeral has no placeholder, since it has no `$`. -/
theorem StandsIn.no_dollar (held : n.StandsIn text) : '$' ∉ text.toList := by
  obtain ⟨before, after, blank, split⟩ := held
  rw [split]
  intro listed
  have dollar : Text.isBlank '$' = false := by decide
  have other := n.forall_chars (P := fun c => c ≠ '$') (by decide) (by simp)
  rcases List.mem_append.mp listed with h | ha
  · rcases List.mem_append.mp h with hb | hc
    · simpa [dollar] using blank '$' (List.mem_append_left _ hb)
    · exact other '$' hc rfl
  · simpa [dollar] using blank '$' (List.mem_append_right _ ha)

end Numeral

/-- A whole number as it is written: digits, perhaps after a plus, or after a minus if it is negative. -/
inductive WritesInteger : Int → List Char → Prop
  | bare {ds : List (Fin 10)} (given : ds ≠ []) : WritesInteger (digitsValue ds) (digitChars ds)
  | plus {ds : List (Fin 10)} (given : ds ≠ []) : WritesInteger (digitsValue ds) ('+' :: digitChars ds)
  | minus {ds : List (Fin 10)} (negative : 0 < digitsValue ds) :
      WritesInteger (-digitsValue ds) ('-' :: digitChars ds)

/-- A text that holds a whole number and otherwise only blanks around it. -/
def HoldsInteger (text : String) (n : Int) : Prop :=
  ∃ before core after, (∀ c ∈ before ++ after, Text.isBlank c = true) ∧ WritesInteger n core ∧
    text.toList = before ++ core ++ after

variable {n m : Int} {core cs : List Char} {text : String} {ds : List (Fin 10)}

theorem exists_digit {c : Char} (digit : Double.isDigit c = true) :
    ∃ d : Fin 10, c = Nat.digitChar d.val := by
  have chars : ∀ d : Fin 10, Nat.digitChar d.val = Char.ofNat (48 + d.val) := by decide
  simp only [Double.isDigit, Bool.and_eq_true, decide_eq_true_eq, Char.le_def] at digit
  have low : 48 ≤ c.toNat := digit.1
  have high : c.toNat ≤ 57 := digit.2
  refine ⟨⟨c.toNat - 48, by omega⟩, ?_⟩
  rw [chars, show 48 + (c.toNat - 48) = c.toNat by omega, Char.ofNat_toNat]

theorem exists_digitChars (digits : ∀ c ∈ cs, Double.isDigit c = true) : ∃ ds, cs = digitChars ds := by
  induction cs with
  | nil => exact ⟨[], rfl⟩
  | cons c cs ih =>
    obtain ⟨d, rfl⟩ := exists_digit (digits c List.mem_cons_self)
    obtain ⟨ds, rfl⟩ := ih fun c later => digits c (List.mem_cons_of_mem _ later)
    exact ⟨d :: ds, rfl⟩

theorem digitChars_ne_cons {c : Char} (sign : Double.isDigit c = false) :
    digitChars ds ≠ c :: cs := by
  intro same
  have listed : c ∈ digitChars ds := same ▸ List.mem_cons_self
  have digit := isDigit_of_mem listed
  rw [sign] at digit
  cases digit

theorem WritesInteger.bare_chars (writes : WritesInteger n core) : ∀ c ∈ core, Text.isBlank c = false := by
  have digits (ds : List (Fin 10)) : ∀ c ∈ digitChars ds, Text.isBlank c = false := by
    intro c listed
    obtain ⟨d, -, rfl⟩ := List.mem_map.mp listed
    have visible : ∀ d : Fin 10, Text.isBlank (Nat.digitChar d.val) = false := by decide
    exact visible d
  cases writes with
  | bare => exact digits _
  | plus => exact List.forall_mem_cons.mpr ⟨by decide, digits _⟩
  | minus => exact List.forall_mem_cons.mpr ⟨by decide, digits _⟩

theorem takeSign_digitChars (ds : List (Fin 10)) :
    Double.takeSign (digitChars ds) = (false, digitChars ds) := by
  unfold Double.takeSign
  split
  · next minus => exact absurd minus (digitChars_ne_cons (by decide))
  · next plus => exact absurd plus (digitChars_ne_cons (by decide))
  · rfl

/-- The number is told by the characters. -/
theorem WritesInteger.unique (writes : WritesInteger n core) (writes' : WritesInteger m core) : n = m := by
  have value {k : Int} (writes : WritesInteger k core) :
      k = if (Double.takeSign core).1 then -(Double.natOfDigits (Double.takeSign core).2 : Int)
        else Double.natOfDigits (Double.takeSign core).2 := by
    cases writes with
    | bare => simp [takeSign_digitChars, natOfDigits_digitChars]
    | plus => simp [Double.takeSign, natOfDigits_digitChars]
    | minus => simp [Double.takeSign, natOfDigits_digitChars]
  rw [value writes, value writes']

theorem writes_of_holds (holds : HoldsInteger text n) : WritesInteger n (Text.trim text).toList := by
  obtain ⟨before, core, after, blank, writes, split⟩ := holds
  rw [Text.trim, String.toList_ofList, split, trimBlanks_around blank writes.bare_chars]
  exact writes

/-- What trimming drops is blank. -/
theorem trimBlanks_split (cs : List Char) : ∃ before after,
    (∀ c ∈ before ++ after, Text.isBlank c = true) ∧ cs = before ++ Text.trimBlanks cs ++ after := by
  refine ⟨cs.takeWhile Text.isBlank, (cs.dropWhile Text.isBlank).rtakeWhile Text.isBlank, ?_, ?_⟩
  · intro c listed
    rcases List.mem_append.mp listed with first | last
    · exact List.mem_takeWhile_imp first
    · exact List.mem_rtakeWhile_imp last
  · have trimmed : Text.trimBlanks cs = (cs.dropWhile Text.isBlank).rdropWhile Text.isBlank := rfl
    rw [trimmed, List.append_assoc, List.rdropWhile_append_rtakeWhile, List.takeWhile_append_dropWhile]

theorem holdsInteger_iff : HoldsInteger text n ↔ WritesInteger n (Text.trim text).toList := by
  refine ⟨writes_of_holds, fun writes => ?_⟩
  obtain ⟨before, after, blank, split⟩ := trimBlanks_split text.toList
  rw [Text.trim, String.toList_ofList] at writes
  exact ⟨before, _, after, blank, writes, split⟩

theorem HoldsInteger.unique (holds : HoldsInteger text n) (holds' : HoldsInteger text m) : n = m :=
  (holdsInteger_iff.mp holds).unique (holdsInteger_iff.mp holds')

end RuleService
