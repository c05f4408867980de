import Mathlib.Data.List.Infix
import RuleService.Text.Split

namespace RuleService.Text

/-- The parts of a text between the places, from left to right, where a separator is found first. -/
inductive Cut (separator : List Char) : List Char → List (List Char) → Prop
  | whole {text : List Char} (absent : ¬ separator <:+: text) : Cut separator text [text]
  | found {part rest : List Char} {parts : List (List Char)}
      (first : ∀ i < part.length, ¬ separator <+: (part ++ (separator ++ rest)).drop i)
      (later : Cut separator rest parts) : Cut separator (part ++ (separator ++ rest)) (part :: parts)

variable {separator text part : List Char} {parts : List (List Char)}

namespace Cut

theorem ne_nil (cut : Cut separator text parts) : parts ≠ [] := by
  cases cut <;> exact List.cons_ne_nil _ _

theorem join (cut : Cut separator text parts) : separator.intercalate parts = text := by
  induction cut with
  | whole => exact List.intercalate_singleton
  | found first later ih =>
    rw [List.intercalate_cons_of_ne_nil later.ne_nil, ih, List.append_assoc]

/-- A separator that is found in a part is found before the part ends. -/
theorem not_infix (some : separator ≠ []) (cut : Cut separator text parts) :
    ∀ part ∈ parts, ¬ separator <:+: part := by
  induction cut with
  | whole absent =>
    intro part listed
    rwa [List.mem_singleton.mp listed]
  | @found own rest parts first later ih =>
    intro part listed
    rcases List.mem_cons.mp listed with rfl | listed
    · rintro ⟨front, back, split⟩
      have room : 0 < separator.length := List.length_pos_iff.mpr some
      have inside : front.length < part.length := by
        have total := congrArg List.length split
        simp only [List.length_append] at total
        omega
      apply first front.length inside
      rw [← split]
      exact ⟨back ++ (separator ++ rest), by simp⟩
    · exact ih part listed

/-- What stands before the first place of a separator ends at the first place. -/
theorem length_le {own other rest rest' : List Char}
    (first : ∀ i < own.length, ¬ separator <+: (own ++ (separator ++ rest)).drop i)
    (same : own ++ (separator ++ rest) = other ++ (separator ++ rest')) :
    own.length ≤ other.length := by
  apply Nat.le_of_not_lt
  intro inside
  apply first other.length inside
  rw [same, List.drop_left]
  exact List.prefix_append _ _

theorem unique {other : List (List Char)} (cut : Cut separator text parts)
    (cut' : Cut separator text other) : parts = other := by
  induction cut generalizing other with
  | @whole text absent =>
    cases cut' with
    | whole => rfl
    | found => exact absurd ⟨_, _, List.append_assoc _ _ _⟩ absent
  | @found own rest parts first later ih =>
    generalize eq : own ++ (separator ++ rest) = text at cut'
    cases cut' with
    | whole absent =>
      rw [← eq] at absent
      exact absurd ⟨_, _, List.append_assoc _ _ _⟩ absent
    | @found own' rest' parts' first' later' =>
      have lengths : own.length = own'.length :=
        Nat.le_antisymm (length_le first eq) (length_le first' eq.symm)
      obtain ⟨rfl, rests⟩ := List.append_inj eq lengths
      obtain rfl := List.append_cancel_left rests
      rw [ih later']

end Cut

theorem splitChars_parts (skip : Nat) :
    splitChars separator skip part parts text =
      parts.reverse ++ splitChars separator skip part [] text := by
  induction text generalizing skip part parts with
  | nil => simp [splitChars]
  | cons c rest ih =>
    cases skip with
    | succ skip => exact ih skip
    | zero =>
      simp only [splitChars]
      split
      · rw [ih, @ih _ [part.reverse]]
        simp
      · exact ih 0

theorem splitChars_skip (skip : Nat) :
    splitChars separator skip part parts text =
      splitChars separator 0 part parts (text.drop skip) := by
  induction text generalizing skip with
  | nil => simp [splitChars]
  | cons c rest ih =>
    cases skip with
    | zero => rfl
    | succ skip => exact ih skip

theorem splitChars_found (some : separator ≠ []) (rest : List Char) :
    splitChars separator 0 part [] (separator ++ rest) =
      part.reverse :: splitChars separator 0 [] [] rest := by
  obtain ⟨c, cs, rfl⟩ := List.exists_cons_of_ne_nil some
  have here : (c :: cs).isPrefixOf (c :: (cs ++ rest)) = true :=
    List.isPrefixOf_iff_prefix.mpr (List.prefix_append (c :: cs) rest)
  rw [List.cons_append, splitChars, if_pos here, splitChars_skip, splitChars_parts]
  simp

theorem splitChars_passed {c : Char} {rest : List Char} (passed : ¬ separator <+: c :: rest) :
    splitChars separator 0 part [] (c :: rest) = splitChars separator 0 (c :: part) [] rest := by
  rw [splitChars, if_neg fun here => passed (List.isPrefixOf_iff_prefix.mp here)]

/-- The walk cuts what it has passed and what is to come, if no separator began in what it has passed: by
induction on the length of what is to come, since a separator is passed over at one go. -/
theorem cut_splitChars (some : separator ≠ []) (part text : List Char)
    (clean : ∀ i < part.length, ¬ separator <+: (part.reverse ++ text).drop i) :
    Cut separator (part.reverse ++ text) (splitChars separator 0 part [] text) := by
  induction size : text.length using Nat.strongRecOn generalizing part text with
  | ind n ih =>
    cases text with
    | nil =>
      rw [List.append_nil, splitChars]
      refine .whole ?_
      rintro ⟨front, back, split⟩
      have room : 0 < separator.length := List.length_pos_iff.mpr some
      have inside : front.length < part.length := by
        have total := congrArg List.length split
        simp only [List.length_append, List.length_reverse] at total
        omega
      apply clean front.length inside
      rw [List.append_nil, ← split]
      exact ⟨back, by simp⟩
    | cons c rest =>
      rw [List.length_cons] at size
      by_cases here : separator <+: c :: rest
      · obtain ⟨rest', eq⟩ := here
        rw [← eq] at clean ⊢
        have shorter : rest'.length < n := by
          have total := congrArg List.length eq
          have room : 0 < separator.length := List.length_pos_iff.mpr some
          simp only [List.length_append, List.length_cons] at total
          omega
        rw [splitChars_found some]
        refine .found (fun i inside => clean i (by simpa using inside)) ?_
        exact ih rest'.length shorter [] rest' nofun rfl
      · rw [splitChars_passed here]
        have passed : ∀ i < (c :: part).length,
            ¬ separator <+: ((c :: part).reverse ++ rest).drop i := by
          intro i inside
          rw [List.reverse_cons, List.append_assoc, List.singleton_append]
          rcases Nat.lt_succ_iff_lt_or_eq.mp inside with before | rfl
          · exact clean i before
          · rwa [List.drop_left' List.length_reverse]
        simpa using ih rest.length (by omega) (c :: part) rest passed rfl

theorem splitChars_iff (some : separator ≠ []) :
    splitChars separator 0 [] [] text = parts ↔ Cut separator text parts := by
  have cut : Cut separator text (splitChars separator 0 [] [] text) :=
    cut_splitChars some [] text nofun
  constructor
  · rintro rfl
    exact cut
  · intro other
    exact cut.unique other

/-- At a single character the walk is that of the library. -/
theorem splitChars_singleton (c : Char) (part text : List Char) :
    splitChars [c] 0 part [] text = text.splitOnPPrepend (· == c) part := by
  induction text generalizing part with
  | nil => simp [splitChars]
  | cons x rest ih =>
    by_cases here : x = c
    · have found : splitChars [c] 0 part [] ([c] ++ rest) = _ :=
        splitChars_found (List.cons_ne_nil c []) rest
      rw [here, List.splitOnPPrepend_cons_pos (by simp)]
      simpa [ih] using found
    · have passed : ¬ [c] <+: x :: rest := by
        intro found
        exact here (List.cons_prefix_cons.mp found).1.symm
      rw [splitChars_passed passed, ih, List.splitOnPPrepend_cons_neg (by simpa using here)]

theorem not_mem_of_mem_splitOn {c : Char} (listed : part ∈ text.splitOn c) : c ∉ part := by
  have cut : Cut [c] text (text.splitOn c) :=
    (splitChars_iff (List.cons_ne_nil c [])).mp (splitChars_singleton c [] text)
  intro inside
  exact cut.not_infix (List.cons_ne_nil c []) part listed ((List.singleton_infix_iff c part).mpr inside)

theorem split_iff {separator text : String} {parts : List String} (some : separator ≠ "") :
    split separator text = parts ↔
      Cut separator.toList text.toList (parts.map String.toList) := by
  have some' : separator.toList ≠ [] := by simpa using some
  rw [← splitChars_iff some', split]
  constructor
  · rintro rfl
    simp [Function.comp_def]
  · intro eq
    rw [eq]
    simp [Function.comp_def]

theorem split_singleton (c : Char) (text : String) :
    split (String.singleton c) text = (text.toList.splitOn c).map String.ofList := by
  rw [split, String.toList_singleton, splitChars_singleton]
  rfl

end RuleService.Text
