import RuleService.Proofs.Pieces
import RuleService.Proofs.Provenance

namespace RuleService

open Effect

/-- A placeholder among characters: `$` and an opening brace, code, and the first closing brace after
them, all on one line. -/
structure Placeholder (text before code after : List Char) : Prop where
  split : text = before ++ '$' :: '\x7b' :: (code ++ '\x7d' :: after)
  closedFirst : '\x7d' ∉ code
  oneLine : '\n' ∉ code

/-- The placeholder that no other begins to the left of. -/
structure FirstPlaceholder (text before code after : List Char) : Prop
    extends Placeholder text before code after where
  leftmost : ∀ b c a, Placeholder text b c a → before.length ≤ b.length

/-- What becomes of characters whose placeholders are evaluated in turn, each in the state that the one
before left, up to the first that fails. The list holds the codes that are evaluated. -/
inductive Fills (engine : Engine) (ctx : Context) :
    List Char → State → List String → Except Failure (List Char) → State → Prop
  | plain {text : List Char} {s : State}
      (none : ∀ before code after, ¬ Placeholder text before code after) :
      Fills engine ctx text s [] (.ok text) s
  | failed {text before code after : List Char} {s t : State} {f : Failure}
      (first : FirstPlaceholder text before code after)
      (evaluated : (evaluate engine ctx (String.ofList code)).outcome s = (.error f, t)) :
      Fills engine ctx text s [String.ofList code] (.error f) t
  | spliced {text before code after : List Char} {s t u : State} {v : Json} {codes : List String}
      {r : Except Failure (List Char)} (first : FirstPlaceholder text before code after)
      (evaluated : (evaluate engine ctx (String.ofList code)).outcome s = (.ok v, t))
      (rest : Fills engine ctx after t codes r u) :
      Fills engine ctx text s (String.ofList code :: codes)
        (r.map fun filled => before ++ v.display.toList ++ filled) u

namespace Placeholder

variable {text before code after : List Char}

/-- Characters split at a first occurrence split in one way only. -/
theorem split_unique {c : Char} {l l' r r' : List Char} (first : c ∉ l) (first' : c ∉ l')
    (same : l ++ c :: r = l' ++ c :: r') : l = l' ∧ r = r' := by
  induction l generalizing l' with
  | nil =>
    cases l' with
    | nil => simpa using same
    | cons x l' => exact absurd (List.cons.inj same).1 (List.ne_and_not_mem_of_not_mem_cons first').1
  | cons x l ih =>
    obtain ⟨other, first⟩ := List.ne_and_not_mem_of_not_mem_cons first
    cases l' with
    | nil => exact absurd (List.cons.inj same).1.symm other
    | cons y l' =>
      obtain ⟨rfl, tails⟩ := List.cons.inj same
      obtain ⟨rfl, rfl⟩ := ih first (List.ne_and_not_mem_of_not_mem_cons first').2 tails
      exact ⟨rfl, rfl⟩

theorem not_nil : ¬ Placeholder [] before code after := by
  intro h
  have split := h.split
  cases before <;> simp at split

theorem closing_mem (h : Placeholder text before code after) : '\x7d' ∈ text := by
  rw [h.split]
  simp

/-- Behind a character a placeholder may begin, or it begins with the character. -/
theorem cons_iff {x : Char} :
    Placeholder (x :: text) before code after ↔
      (before = [] ∧ x = '$' ∧ text = '\x7b' :: (code ++ '\x7d' :: after) ∧ '\x7d' ∉ code ∧
        '\n' ∉ code) ∨
      ∃ b, before = x :: b ∧ Placeholder text b code after := by
  constructor
  · rintro ⟨split, closedFirst, oneLine⟩
    cases before with
    | nil =>
      obtain ⟨rfl, rfl⟩ := List.cons.inj split
      exact .inl ⟨rfl, rfl, rfl, closedFirst, oneLine⟩
    | cons y b =>
      obtain ⟨rfl, rfl⟩ := List.cons.inj split
      exact .inr ⟨b, rfl, rfl, closedFirst, oneLine⟩
  · rintro (⟨rfl, rfl, rfl, closedFirst, oneLine⟩ | ⟨b, rfl, split, closedFirst, oneLine⟩)
    · exact ⟨rfl, closedFirst, oneLine⟩
    · exact ⟨congrArg (x :: ·) split, closedFirst, oneLine⟩

/-- On a line without a closing brace no placeholder begins. -/
theorem of_line {line : List Char} (unclosed : '\x7d' ∉ line)
    (h : Placeholder (line ++ '\n' :: text) before code after) :
    ∃ b, before = line ++ '\n' :: b ∧ Placeholder text b code after := by
  induction line generalizing before with
  | nil =>
    obtain ⟨-, impossible, -⟩ | ⟨b, rfl, later⟩ := cons_iff.mp h
    · simp at impossible
    · exact ⟨b, rfl, later⟩
  | cons x line ih =>
    obtain ⟨-, -, opened, -, oneLine⟩ | ⟨b, rfl, later⟩ := cons_iff.mp h
    · cases line with
      | nil => simp at opened
      | cons y line =>
        have rest : line ++ '\n' :: text = code ++ '\x7d' :: after := (List.cons.inj opened).2
        obtain ⟨e, hc, he⟩ | ⟨e, hl, he⟩ := List.append_eq_append_iff.mp rest
        · cases e <;> simp_all
        · cases e <;> simp_all
    · have unclosed' := (List.ne_and_not_mem_of_not_mem_cons unclosed).2
      obtain ⟨b', rfl, found⟩ := ih unclosed' later
      exact ⟨b', rfl, found⟩

end Placeholder

namespace FirstPlaceholder

variable {text before code after : List Char}

theorem unique {b c a : List Char} (one : FirstPlaceholder text before code after)
    (other : FirstPlaceholder text b c a) : before = b ∧ code = c ∧ after = a := by
  have sameLength : before.length = b.length :=
    Nat.le_antisymm (one.leftmost _ _ _ other.toPlaceholder)
      (other.leftmost _ _ _ one.toPlaceholder)
  obtain ⟨rfl, rest⟩ := List.append_inj (one.split.symm.trans other.split) sameLength
  have tails : code ++ '\x7d' :: after = c ++ '\x7d' :: a := by simpa using rest
  obtain ⟨rfl, rfl⟩ := Placeholder.split_unique one.closedFirst other.closedFirst tails
  exact ⟨rfl, rfl, rfl⟩

/-- At the front of a text a placeholder is the first. -/
theorem front (closedFirst : '\x7d' ∉ code) (oneLine : '\n' ∉ code) :
    FirstPlaceholder ('$' :: '\x7b' :: (code ++ '\x7d' :: after)) [] code after :=
  ⟨⟨rfl, closedFirst, oneLine⟩, fun _ _ _ _ => Nat.zero_le _⟩

/-- What stands before a text, and in what no placeholder begins, only shifts the first one. -/
theorem shift {front : List Char} (first : FirstPlaceholder text before code after)
    (later : ∀ b c a, Placeholder (front ++ text) b c a →
      ∃ b', b = front ++ b' ∧ Placeholder text b' c a) :
    FirstPlaceholder (front ++ text) (front ++ before) code after := by
  refine ⟨⟨?_, first.closedFirst, first.oneLine⟩, ?_⟩
  · rw [first.split]
    simp
  · intro b c a h
    obtain ⟨b', rfl, h'⟩ := later b c a h
    have := first.leftmost b' c a h'
    simp only [List.length_append]
    omega

end FirstPlaceholder

namespace Piece

/-- Characters that end neither the code nor the line are read on. -/
theorem inside_line {line : List Char} (unclosed : '\x7d' ∉ line) (oneLine : '\n' ∉ line)
    (plain read rest : List Char) :
    inside plain read (line ++ rest) = inside plain (line.reverse ++ read) rest := by
  induction line generalizing read with
  | nil => rfl
  | cons c line ih =>
    obtain ⟨notClosing, unclosed⟩ := List.ne_and_not_mem_of_not_mem_cons unclosed
    obtain ⟨notBreaking, oneLine⟩ := List.ne_and_not_mem_of_not_mem_cons oneLine
    rw [List.cons_append, inside.eq_4 _ _ _ _ notClosing.symm notBreaking.symm,
      ih unclosed oneLine]
    simp

theorem inside_closed {code : List Char} (closedFirst : '\x7d' ∉ code) (oneLine : '\n' ∉ code)
    (plain after : List Char) :
    inside plain [] (code ++ '\x7d' :: after) =
      plainOf plain ++ .code (String.ofList code) :: outside [] after := by
  rw [inside_line closedFirst oneLine, inside]
  simp

theorem inside_broken {line : List Char} (unclosed : '\x7d' ∉ line) (oneLine : '\n' ∉ line)
    (plain after : List Char) :
    inside plain [] (line ++ '\n' :: after) =
      outside ('\n' :: (line.reverse ++ '\x7b' :: '$' :: plain)) after := by
  rw [inside_line unclosed oneLine, inside]
  simp

theorem inside_ended {line : List Char} (unclosed : '\x7d' ∉ line) (oneLine : '\n' ∉ line)
    (plain : List Char) :
    inside plain [] line = plainOf (line.reverse ++ '\x7b' :: '$' :: plain) := by
  have ended := inside_line unclosed oneLine plain [] []
  rw [List.append_nil, List.append_nil] at ended
  rw [ended, inside]

/-- The end of an opened placeholder, of its line, or of the text, whichever comes first. -/
theorem line_cases (rest : List Char) :
    (∃ line after, rest = line ++ '\x7d' :: after ∧ '\x7d' ∉ line ∧ '\n' ∉ line) ∨
    (∃ line after, rest = line ++ '\n' :: after ∧ '\x7d' ∉ line ∧ '\n' ∉ line) ∨
    ('\x7d' ∉ rest ∧ '\n' ∉ rest) := by
  induction rest with
  | nil => simp
  | cons x rest ih =>
    by_cases closes : x = '\x7d'
    · exact .inl ⟨[], rest, by simp [closes], by simp, by simp⟩
    by_cases breaks : x = '\n'
    · exact .inr (.inl ⟨[], rest, by simp [breaks], by simp, by simp⟩)
    have notClosing : '\x7d' ≠ x := Ne.symm closes
    have notBreaking : '\n' ≠ x := Ne.symm breaks
    obtain ⟨line, after, rfl, unclosed, oneLine⟩ | ⟨line, after, rfl, unclosed, oneLine⟩ |
      ⟨unclosed, oneLine⟩ := ih
    · exact .inl ⟨x :: line, after, rfl, by simp [notClosing, unclosed],
        by simp [notBreaking, oneLine]⟩
    · exact .inr (.inl ⟨x :: line, after, rfl, by simp [notClosing, unclosed],
        by simp [notBreaking, oneLine]⟩)
    · exact .inr (.inr ⟨by simp [notClosing, unclosed], by simp [notBreaking, oneLine]⟩)

/-- Characters without a placeholder are one plain piece; others are what stands before the first
placeholder, its code, and the pieces of what stands behind it. -/
def Splits (plain rest : List Char) : Prop :=
  ((∀ before code after, ¬ Placeholder rest before code after) ∧
    outside plain rest = plainOf (rest.reverse ++ plain)) ∨
  ∃ before code after, FirstPlaceholder rest before code after ∧
    outside plain rest = plainOf (before.reverse ++ plain) ++
      .code (String.ofList code) :: outside [] after

/-- Characters in front, in which no placeholder begins, are plain. -/
theorem Splits.shift {front plain rest : List Char} (splits : Splits (front.reverse ++ plain) rest)
    (later : ∀ before code after, Placeholder (front ++ rest) before code after →
      ∃ b, before = front ++ b ∧ Placeholder rest b code after)
    (read : outside plain (front ++ rest) = outside (front.reverse ++ plain) rest) :
    Splits plain (front ++ rest) := by
  obtain ⟨none, eq⟩ | ⟨before, code, after, first, eq⟩ := splits
  · refine .inl ⟨fun b c a h => ?_, by rw [read, eq]; simp⟩
    obtain ⟨b', -, h'⟩ := later b c a h
    exact none b' c a h'
  · exact .inr ⟨front ++ before, code, after, first.shift later, by rw [read, eq]; simp⟩

/-- Every text splits so: by induction on the length, since an opened placeholder may give up a whole line at
once. -/
theorem outside_splits (plain rest : List Char) : Splits plain rest := by
  induction hn : rest.length using Nat.strongRecOn generalizing plain rest with
  | ind n ih =>
  by_cases opened : ∃ tail, rest = '$' :: '\x7b' :: tail
  · obtain ⟨tail, rfl⟩ := opened
    obtain ⟨code, after, rfl, closedFirst, oneLine⟩ | ⟨line, after, rfl, unclosed, oneLine⟩ |
      ⟨unclosed, oneLine⟩ := line_cases tail
    · refine .inr ⟨[], code, after, .front closedFirst oneLine, ?_⟩
      rw [outside, inside_closed closedFirst oneLine]
      simp
    · have whole : '$' :: '\x7b' :: (line ++ '\n' :: after) =
          ('$' :: '\x7b' :: line ++ ['\n']) ++ after := by simp
      have shorter : after.length < n := by
        rw [← hn]
        simp only [List.length_cons, List.length_append]
        omega
      rw [whole]
      refine (ih after.length shorter _ after rfl).shift (fun b c a h => ?_) ?_
      · have unclosed' : '\x7d' ∉ '$' :: '\x7b' :: line := by simpa using unclosed
        obtain ⟨b', rfl, h'⟩ := Placeholder.of_line unclosed' (whole ▸ h)
        exact ⟨b', by simp, h'⟩
      · rw [← whole, outside, inside_broken unclosed oneLine]
        simp
    · refine .inl ⟨fun b c a h => ?_, ?_⟩
      · have closing := h.closing_mem
        simp [unclosed] at closing
      · rw [outside, inside_ended unclosed oneLine]
        simp
  · cases rest with
    | nil => exact .inl ⟨fun _ _ _ => Placeholder.not_nil, by simp [outside]⟩
    | cons x tail =>
      have shorter : tail.length < n := by simp [← hn]
      refine Splits.shift (ih tail.length shorter ([x].reverse ++ plain) tail rfl)
        (fun b c a h => ?_) ?_
      · obtain ⟨-, rfl, eq, -⟩ | ⟨b', rfl, h'⟩ := Placeholder.cons_iff.mp h
        · exact absurd ⟨_, congrArg ('$' :: ·) eq⟩ opened
        · exact ⟨b', rfl, h'⟩
      · exact outside.eq_3 plain x tail fun r hx ht => opened ⟨r, by rw [hx, ht]⟩

/-- A text has a placeholder just if there is one among its characters. -/
theorem any_isCode_iff (text : List Char) :
    (outside [] text).any isCode = true ↔ ∃ before code after, Placeholder text before code after := by
  obtain ⟨none, eq⟩ | ⟨before, code, after, first, eq⟩ := outside_splits [] text
  · constructor
    · intro coded
      rw [eq] at coded
      cases hr : text.reverse <;> simp [plainOf, isCode, hr] at coded
    · rintro ⟨before, code, after, h⟩
      exact absurd h (none before code after)
  · rw [eq]
    simp only [List.any_append, List.any_cons, isCode, Bool.true_or, Bool.or_true, true_iff]
    exact ⟨before, code, after, first.toPlaceholder⟩

end Piece

variable {engine : Engine} {ctx : Context} {s t : State}

namespace Fills

/-- The relation gives one answer. -/
theorem unique {text : List Char} {codes codes' : List String} {r r' : Except Failure (List Char)}
    {t' : State} (one : Fills engine ctx text s codes r t) (other : Fills engine ctx text s codes' r' t') :
    codes' = codes ∧ r' = r ∧ t' = t := by
  induction one generalizing codes' r' t' with
  | plain none =>
    cases other with
    | plain => exact ⟨rfl, rfl, rfl⟩
    | failed first | spliced first => exact absurd first.toPlaceholder (none _ _ _)
  | failed first evaluated =>
    cases other with
    | plain none => exact absurd first.toPlaceholder (none _ _ _)
    | failed first' evaluated' | spliced first' evaluated' =>
      obtain ⟨rfl, rfl, rfl⟩ := first.unique first'
      simp_all
  | spliced first evaluated rest ih =>
    cases other with
    | plain none => exact absurd first.toPlaceholder (none _ _ _)
    | failed first' evaluated' =>
      obtain ⟨rfl, rfl, rfl⟩ := first.unique first'
      simp_all
    | spliced first' evaluated' rest' =>
      obtain ⟨rfl, rfl, rfl⟩ := first.unique first'
      obtain ⟨hv, ht⟩ := Prod.mk.inj (evaluated.symm.trans evaluated')
      obtain rfl := Except.ok.inj hv
      subst ht
      obtain ⟨rfl, rfl, rfl⟩ := ih rest'
      exact ⟨rfl, rfl, rfl⟩

/-- Each code is run once, and nothing else is. -/
theorem snippets {text : List Char} {codes : List String} {r : Except Failure (List Char)}
    (fills : Fills engine ctx text s codes r t) : t.snippets = s.snippets ++ codes := by
  induction fills with
  | plain => simp
  | failed first evaluated => rw [← congrArg (·.2.snippets) evaluated, snippets_evaluate]
  | spliced first evaluated rest ih =>
    rw [ih, ← congrArg (·.2.snippets) evaluated, snippets_evaluate]
    simp

end Fills

theorem splice_plainOf (engine : Engine) (ctx : Context) (acc : String) (plain : List Char) (pieces : List Piece) :
    splice engine ctx acc (Piece.plainOf plain ++ pieces) =
      splice engine ctx (acc ++ String.ofList plain.reverse) pieces := by
  cases plain <;> simp [Piece.plainOf, splice]

/-- Splicing the pieces of a text fills its placeholders. -/
theorem fills_splice (engine : Engine) (ctx : Context) (text : List Char) (acc : String) (s : State) :
    ∃ codes r t, Fills engine ctx text s codes r t ∧
      (splice engine ctx acc (Piece.outside [] text)).outcome s =
        (r.map fun filled => acc ++ String.ofList filled, t) := by
  induction hn : text.length using Nat.strongRecOn generalizing text acc s with
  | ind n ih =>
  obtain ⟨none, eq⟩ | ⟨before, code, after, first, eq⟩ := Piece.outside_splits [] text
  · refine ⟨[], .ok text, s, .plain none, ?_⟩
    have ended := splice_plainOf engine ctx acc text.reverse []
    rw [List.append_nil] at ended
    rw [eq, List.append_nil, ended]
    simp [splice, Except.map]
  · rw [eq, List.append_nil, splice_plainOf, List.reverse_reverse, splice, outcome_bind]
    rcases evaluated : (evaluate engine ctx (String.ofList code)).outcome s with ⟨r, t⟩
    cases r with
    | error f => exact ⟨[String.ofList code], .error f, t, .failed first evaluated, rfl⟩
    | ok v =>
      have shorter : after.length < n := by
        rw [← hn, first.split]
        simp only [List.length_append, List.length_cons]
        omega
      obtain ⟨codes, r, u, rest, spliced⟩ := ih after.length shorter after
        (acc ++ String.ofList before ++ v.display) t rfl
      refine ⟨_, _, u, .spliced first evaluated rest, ?_⟩
      simp only [spliced]
      cases r <;> simp [Except.map, String.append_assoc]

/-- One piece that is a placeholder is the whole of the text. -/
theorem Piece.outside_eq_code_iff {text code : List Char} :
    outside [] text = [.code (String.ofList code)] ↔ FirstPlaceholder text [] code [] := by
  constructor
  · intro alone
    obtain ⟨-, eq⟩ | ⟨before, c, after, first, eq⟩ := outside_splits [] text
    · rw [alone] at eq
      cases hr : text.reverse <;> simp [plainOf, hr] at eq
    · rw [alone, List.append_nil] at eq
      cases hb : before.reverse with
      | cons x rest => simp [plainOf, hb] at eq
      | nil =>
        obtain rfl : before = [] := by simpa using hb
        rw [hb, plainOf, if_pos List.isEmpty_nil, List.nil_append] at eq
        obtain ⟨same, ended⟩ := List.cons.inj eq
        obtain rfl : code = c := String.ofList_injective (Piece.code.inj same)
        have covered := chars_ofText (String.ofList after)
        rw [ofText, String.toList_ofList, ← ended] at covered
        obtain rfl : [] = after := covered
        exact first
  · intro whole
    obtain ⟨none, -⟩ | ⟨before, c, after, first, eq⟩ := outside_splits [] text
    · exact absurd whole.toPlaceholder (none _ _ _)
    · obtain ⟨rfl, rfl, rfl⟩ := whole.unique first
      simpa [plainOf, outside] using eq

theorem expandPieces_mixed {text : List Char}
    (mixed : ∀ code, ¬ FirstPlaceholder text [] code []) :
    expandPieces engine ctx (Piece.outside [] text) =
      Json.str <$> splice engine ctx "" (Piece.outside [] text) := by
  refine expandPieces.eq_2 engine ctx _ fun code alone => ?_
  rw [← String.ofList_toList (s := code)] at alone
  exact mixed _ (Piece.outside_eq_code_iff.mp alone)

/-- What filling a text comes to: the codes that run, the text filled or the first failure, and the state
that is left. -/
structure Filled (engine : Engine) (ctx : Context) (text : String) (s : State) (codes : List String)
    (r : Except Failure (List Char)) (t : State) : Prop where
  fills : Fills engine ctx text.toList s codes r t
  only : ∀ codes' r' t', Fills engine ctx text.toList s codes' r' t' →
    codes' = codes ∧ r' = r ∧ t' = t
  mixed : (∀ code, ¬ FirstPlaceholder text.toList [] code []) →
    (expand engine ctx text).outcome s = (r.map fun filled => .str (String.ofList filled), t)
  displayed : ((expand engine ctx text).outcome s).1.map Json.display = r.map String.ofList
  state : ((expand engine ctx text).outcome s).2 = t
  ran : t.snippets = s.snippets ++ codes

/-- The expansion of a text. Without a placeholder it is the text itself, and nothing runs. A placeholder
that is the whole of the text gives its value. Every other text is filled: each placeholder from the left
is evaluated once, in the state the one before left, and replaced by what its value is displayed as, the
other characters are kept, and the first failure ends the work. Displayed, the value of any text is that
text filled. -/
structure ExpandsText (engine : Engine) (ctx : Context) (text : String) (s : State) : Prop where
  placed : hasPlaceholder text = true ↔
    ∃ before code after, Placeholder text.toList before code after
  bare : hasPlaceholder text = false → (expand engine ctx text).outcome s = (.ok (.str text), s)
  whole : ∀ code, FirstPlaceholder text.toList [] code [] →
    (expand engine ctx text).outcome s = (evaluate engine ctx (String.ofList code)).outcome s
  filled : ∃ codes r t, Filled engine ctx text s codes r t

theorem expand_whole {text : String} {code : List Char}
    (first : FirstPlaceholder text.toList [] code []) :
    expand engine ctx text = evaluate engine ctx (String.ofList code) := by
  rw [expand, Piece.ofText, Piece.outside_eq_code_iff.mpr first, expandPieces]

theorem expand_filled (engine : Engine) (ctx : Context) (text : String) (s : State) :
    ∃ codes r t, Filled engine ctx text s codes r t := by
  obtain ⟨codes, r, t, fills, spliced⟩ := fills_splice engine ctx text.toList "" s
  have mixed (none : ∀ code, ¬ FirstPlaceholder text.toList [] code []) :
      (expand engine ctx text).outcome s = (r.map fun filled => .str (String.ofList filled), t) := by
    rw [expand, Piece.ofText, expandPieces_mixed none, outcome_map, spliced]
    cases r <;> simp [Except.map]
  have displayed : ((expand engine ctx text).outcome s).1.map Json.display = r.map String.ofList ∧
      ((expand engine ctx text).outcome s).2 = t := by
    by_cases alone : ∃ code, FirstPlaceholder text.toList [] code []
    · obtain ⟨code, first⟩ := alone
      rw [expand_whole first]
      cases fills with
      | plain none => exact absurd first.toPlaceholder (none _ _ _)
      | failed first' evaluated =>
        obtain ⟨-, rfl, -⟩ := first.unique first'
        simp [evaluated, Except.map]
      | spliced first' evaluated rest =>
        obtain ⟨rfl, rfl, rfl⟩ := first.unique first'
        obtain ⟨-, rfl, rfl⟩ := rest.unique (.plain fun _ _ _ => Placeholder.not_nil)
        simp [evaluated, Except.map]
    · rw [mixed fun code first => alone ⟨code, first⟩]
      cases r <;> simp [Except.map, Json.display]
  exact ⟨codes, r, t, fills, fun _ _ _ other => fills.unique other, mixed, displayed.1, displayed.2,
    fills.snippets⟩

/-- Expanding a text evaluates its placeholders and nothing else, once each and from left to right. -/
theorem expand_exact (engine : Engine) (ctx : Context) (text : String) (s : State) :
    ExpandsText engine ctx text s := by
  have placed : hasPlaceholder text = true ↔
      ∃ before code after, Placeholder text.toList before code after :=
    Piece.any_isCode_iff text.toList
  constructor
  case placed => exact placed
  case bare =>
    intro bare
    have none (before code after : List Char) : ¬ Placeholder text.toList before code after := by
      intro h
      rw [placed.mpr ⟨before, code, after, h⟩] at bare
      cases bare
    obtain ⟨codes, r, t, filled⟩ := expand_filled engine ctx text s
    obtain ⟨-, rfl, rfl⟩ := filled.fills.unique (.plain none)
    simpa [Except.map] using filled.mixed fun code first => none _ _ _ first.toPlaceholder
  case whole => exact fun code first => by rw [expand_whole first]
  case filled => exact expand_filled engine ctx text s

/-- Two placeholders on one line, the first with an opened one in its code, after a line on which one is
opened and not closed. -/
def twoPlaceholders : String := "$\x7bx\n$\x7ba$\x7bb\x7d$\x7bc\x7d!"

theorem expand_exact_adjacent :
    (hasPlaceholder "$\x7bx\n" = false ∧
      (expand echoing.engine {} "$\x7bx\n").outcome {} = (.ok (.str "$\x7bx\n"), {})) ∧
    (FirstPlaceholder "$\x7bx\x7d".toList [] ['x'] [] ∧
      (expand echoing.engine {} "$\x7bx\x7d").outcome {} =
        (evaluate echoing.engine {} "x").outcome {}) ∧
    (∀ code, ¬ FirstPlaceholder twoPlaceholders.toList [] code []) ∧
    (∃ (r : Except Failure (List Char)) (t : State),
      (expand echoing.engine {} twoPlaceholders).outcome {} =
        (r.map fun filled => .str (String.ofList filled), t)) ∧
    ((expand echoing.engine {} twoPlaceholders).outcome {}).2.snippets = ["a$\x7bb", "c"] ∧
    ((expand echoing.engine {} twoPlaceholders).outcome {}).1.toOption.map Json.display =
      some "$\x7bx\n$\x7ba$\x7bb()\x7d$\x7bc()\x7d!" := by
  have characters : "$\x7bx\x7d".toList = '$' :: '\x7b' :: (['x'] ++ '\x7d' :: []) := by decide
  have whole : FirstPlaceholder "$\x7bx\x7d".toList [] ['x'] [] := by
    rw [characters]
    exact .front (by decide) (by decide)
  have mixed (code : List Char) : ¬ FirstPlaceholder twoPlaceholders.toList [] code [] := by
    intro first
    have atEnd : twoPlaceholders.toList.getLast? = some '\x7d' := by
      rw [first.split, ← List.cons_append, ← List.cons_append, List.nil_append,
        List.getLast?_concat]
    exact absurd atEnd (by decide)
  obtain ⟨codes, r, t, filled⟩ := (expand_exact echoing.engine {} twoPlaceholders {}).filled
  exact ⟨⟨by decide, (expand_exact echoing.engine {} "$\x7bx\n" {}).bare (by decide)⟩,
    ⟨whole, (expand_exact echoing.engine {} "$\x7bx\x7d" {}).whole ['x'] whole⟩, mixed,
    ⟨r, t, filled.mixed mixed⟩, by decide +kernel, by decide +kernel⟩

end RuleService
