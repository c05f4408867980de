import RuleService.Proofs.Calls

namespace RuleService.Snippet

namespace Value

inductive Tidy : Value → Prop
  | unit : Tidy .unit
  | bool (b : Bool) : Tidy (.bool b)
  | int (n : Int) : Tidy (.int n)
  | float (d : Double) : Tidy (.float d)
  | char (c : Char) : Tidy (.char c)
  | str (t : String) : Tidy (.str t)
  | array {items : List Value} (each : ∀ v ∈ items, Tidy v) : Tidy (.array items)
  | map {entries : List (String × Value)} (ordered : entries.Pairwise fun a b => a.1 < b.1)
      (each : ∀ e ∈ entries, Tidy e.2) : Tidy (.map entries)

theorem ordered_setEntry {entries : Entries} (ordered : entries.Pairwise fun a b => a.1 < b.1)
    (key : String) (v : Value) : (setEntry entries key v).Pairwise fun a b => a.1 < b.1 := by
  induction entries with
  | nil => simp [setEntry]
  | cons e rest ih =>
    obtain ⟨k, old⟩ := e
    obtain ⟨first, later⟩ := List.pairwise_cons.mp ordered
    rw [setEntry]
    split
    · next same =>
      obtain rfl : key = k := eq_of_beq same
      exact List.pairwise_cons.mpr ⟨first, later⟩
    · next differs =>
      split
      · next earlier =>
        refine List.pairwise_cons.mpr ⟨?_, ordered⟩
        intro e member
        rcases List.mem_cons.mp member with rfl | member
        · exact earlier
        · exact String.lt_trans earlier (first e member)
      · next notEarlier =>
        refine List.pairwise_cons.mpr ⟨?_, ih later⟩
        intro e member
        rcases mem_setEntry member with rfl | member
        · by_contra notLater
          have same : key = k :=
            String.le_antisymm (String.not_lt.mp notLater) (String.not_lt.mp notEarlier)
          exact differs (beq_iff_eq.mpr same)
        · exact first e member

theorem setEntry_same {entries : Entries} (ordered : entries.Pairwise fun a b => a.1 < b.1)
    {key : String} {v : Value} (held : entry? entries key = some v) :
    setEntry entries key v = entries := by
  induction entries with
  | nil => cases held
  | cons e rest ih =>
    obtain ⟨k, old⟩ := e
    obtain ⟨first, later⟩ := List.pairwise_cons.mp ordered
    rw [ entry?, List.lookup_cons] at held
    rw [setEntry]
    cases same : key == k with
    | true =>
      rw [same] at held
      obtain rfl : old = v := Option.some.inj held
      rw [eq_of_beq same]
      rfl
    | false =>
      rw [same] at held
      obtain ⟨before, after, split, -⟩ := List.lookup_eq_some_iff.mp held
      have member : (key, v) ∈ rest := by simp [split]
      have after : k < key := first (key, v) member
      rw [if_neg (String.lt_asymm after), ih later held]
      rfl

theorem mem_ofJsonItems {items : List Json} {v : Value} (member : v ∈ ofJsonItems items) :
    ∃ item ∈ items, v = ofJson item := by
  induction items with
  | nil => cases member
  | cons item items ih =>
    rcases List.mem_cons.mp member with rfl | later
    · exact ⟨item, List.mem_cons_self, rfl⟩
    · obtain ⟨other, inItems, eq⟩ := ih later
      exact ⟨other, List.mem_cons_of_mem _ inItems, eq⟩

theorem ordered_ofJsonFields (fields : Fields) :
    (ofJsonFields fields).Pairwise fun a b => a.1 < b.1 := by
  induction fields with
  | nil => exact .nil
  | cons field fields ih => exact ordered_setEntry ih field.1 (ofJson field.2)

/-- What an engine is given is tidy. -/
theorem tidy_ofJson (j : Json) : (ofJson j).Tidy := by
  induction j using Json.size_induction with
  | step j ih =>
    cases j with
    | null => exact .unit
    | bool b => exact .bool b
    | float d => exact .float d
    | str t => exact .str t
    | int n =>
      rw [ofJson]
      split
      · exact .int n
      · exact .float _
    | arr items =>
      refine .array fun v member => ?_
      obtain ⟨item, inItems, rfl⟩ := mem_ofJsonItems member
      exact ih item (Json.sizeOf_item_lt inItems)
    | obj fields =>
      refine .map (ordered_ofJsonFields fields) fun e member => ?_
      · obtain ⟨field, inFields, rfl⟩ := mem_ofJsonFields member
        exact ih field.2 (Json.sizeOf_field_lt inFields)

theorem Tidy.content {v : Value} (tidy : v.Tidy) (m : Machine) : m.content v = v := by
  cases tidy <;> rfl

end Value

namespace Run

variable {α β : Type}

/-- That a run ends in such a value if it does not fail. -/
structure Gives (x : Run α) (such : α → Prop) : Prop where
  value : ∀ m a m', outcome x m = (.ok a, m') → such a

theorem Gives.pure {such : α → Prop} {a : α} (holds : such a) : Gives (pure a) such := by
  constructor
  rintro m b m' ended
  cases ended
  exact holds

theorem Gives.bind {such : β → Prop} {x : Run α} {next : α → Run β}
    (later : ∀ a, Gives (next a) such) : Gives (x >>= next) such := by
  constructor
  intro m b m' ended
  rw [outcome_bind] at ended
  cases first : outcome x m with
  | mk r m₁ =>
    rw [first] at ended
    cases r with
    | error e => cases ended
    | ok a => exact (later a).value m₁ b m' ended

theorem Gives.bind_of {held : α → Prop} {such : β → Prop} {x : Run α} {next : α → Run β}
    (first : Gives x held) (later : ∀ a, held a → Gives (next a) such) :
    Gives (x >>= next) such := by
  constructor
  intro m b m' ended
  rw [outcome_bind] at ended
  cases started : outcome x m with
  | mk r m₁ =>
    rw [started] at ended
    cases r with
    | error e => cases ended
    | ok a => exact (later a (first.value m a m₁ started)).value m₁ b m' ended

end Run

open Run

namespace Interpreter

/-- That a step goes to a part of a value and calls nothing. -/
def Step.Selects : Step → Prop
  | .property .. | .index .. => True
  | .method .. => False

/-- An item of an array is where it is put back. -/
theorem set_getD (items : List Value) (i : Nat) : items.set i (items.getD i .unit) = items := by
  by_cases inside : i < items.length
  · rw [← List.getElem_eq_getD (h := inside), List.set_getElem_self]
  · exact List.set_eq_of_length_le (Nat.le_of_not_lt inside)

theorem tidy_getD {items : List Value} (each : ∀ v ∈ items, v.Tidy) (i : Nat) :
    (items.getD i .unit).Tidy := by
  by_cases inside : i < items.length
  · rw [← List.getElem_eq_getD (h := inside)]
    exact each _ (List.getElem_mem inside)
  · rw [List.getD_eq_getElem?_getD, List.getElem?_eq_none (Nat.le_of_not_lt inside)]
    exact .unit

/-- What is at a position of a tidy value is tidy, and putting it back changes nothing. -/
theorem putAt_itemAt {v position part : Value} (tidy : v.Tidy)
    (found : itemAt v position = .ok part) : part.Tidy ∧ putAt v position part = v := by
  cases tidy with
  | @array items each =>
    cases position with
    | int n =>
      simp only [itemAt] at found
      cases place : placeOf items.length n with
      | none =>
        rw [place] at found
        cases found
      | some i =>
        rw [place] at found
        obtain rfl : items.getD i .unit = part := Except.ok.inj found
        refine ⟨tidy_getD each i, ?_⟩
        simp only [putAt, place, Option.map_some, Option.getD_some, set_getD]
    | _ => cases found
  | @map entries ordered each =>
    cases position with
    | str key =>
      obtain rfl : (Value.entry? entries key).getD .unit = part := Except.ok.inj found
      cases held : Value.entry? entries key with
      | none => exact ⟨.unit, by simp [putAt, held]⟩
      | some w =>
        have member : (key, w) ∈ entries := by
          obtain ⟨before, after, split, -⟩ := List.lookup_eq_some_iff.mp held
          simp [split]
        refine ⟨each (key, w) member, ?_⟩
        simp [putAt, held, Value.setEntry_same ordered held]
    | _ => cases found
  | str t =>
    refine ⟨?_, rfl⟩
    cases position with
    | int n =>
      simp only [itemAt] at found
      split at found
      · cases found
        exact .char _
      · cases found
    | range low high inclusive =>
      cases found
      exact .str _
    | _ => cases found
  | int n =>
    refine ⟨?_, rfl⟩
    cases position with
    | int i =>
      simp only [itemAt] at found
      cases place : bitOf i with
      | error f =>
        rw [place] at found
        cases found
      | ok bit =>
        rw [place] at found
        cases found
        exact .bool _
    | _ => cases found
  | _ => cases found

variable {go : Go} {s : Surroundings}

/-- Selecting in a tidy value leaves it as it is. -/
theorem walk_tidy {steps : List Step} {v : Value} (selects : ∀ step ∈ steps, step.Selects)
    (tidy : v.Tidy) : Gives (walk go s none steps v) fun r => r.2 = v := by
  induction steps generalizing v with
  | nil => exact .pure rfl
  | cons step rest ih =>
    have inner {part : Value} (tidyPart : part.Tidy) :
        Gives (walk go s none rest part) fun r => r.2 = part :=
      ih (fun other later => selects other (List.mem_cons_of_mem _ later)) tidyPart
    have first := selects step List.mem_cons_self
    unfold walk
    extract_lets isLast onward
    clear_value isLast
    have onward_gives (x : Option Nat × Value) (own : (none, v) = x) :
        Gives (onward x) fun r => r.2 = v := by
      unfold onward
      split
      next cell target =>
      cases own
      extract_lets back inside place
      have back_gives (r : Except Signal Value × Value) (same : r.2 = v) :
          Gives (back r) fun r => r.2 = v := .pure same
      have inside_gives (p part : Value) (found : itemAt v p = .ok part) :
          Gives (inside p part) fun r => r.2 = v := by
        obtain ⟨tidyPart, same⟩ := putAt_itemAt tidy found
        refine .bind_of (inner tidyPart) fun r eq => ?_
        obtain ⟨r, part'⟩ := r
        obtain rfl : part' = part := eq
        exact back_gives _ same
      have place_gives (p : Value) : Gives (place p) fun r => r.2 = v := by
        unfold place
        split
        · next impossible => cases impossible
        · split
          · exact back_gives _ rfl
          · next part found =>
            split
            · exact back_gives _ rfl
            · exact inside_gives p part found
      split
      · split
        · exact back_gives _ rfl
        · split
          · exact place_gives _
          · exact back_gives _ rfl
          · cases first
      · exact place_gives _
      · exact place_gives _
      · split
        · exact back_gives _ rfl
        · split
          · exact back_gives _ rfl
          · exact .bind fun _ => back_gives _ rfl
      · cases first
    cases tidy <;> exact .bind_of (.pure rfl) onward_gives

end Interpreter

end RuleService.Snippet
