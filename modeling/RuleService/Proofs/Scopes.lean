import RuleService.Proofs.Reading

namespace RuleService.Snippet

namespace Machine

/-- That the given variables are in scope as they were given, below variables of some names and,
above those, of names that there may be. -/
def Above (base : List Binding) (may below : List String) (m : Machine) : Prop :=
  ∃ own new, m.scope = own ++ base ∧ own.map (·.name) = new ++ below ∧ new ⊆ may

theorem replace_names (name : String) (v : Value) (scope : List Binding) :
    (replace name v scope).map (·.name) = scope.map (·.name) := by
  induction scope with
  | nil => rfl
  | cons b rest ih =>
    rw [replace]
    split
    · rfl
    · rw [List.map_cons, List.map_cons, ih]

theorem replace_missing {name : String} (v : Value) {scope : List Binding}
    (missing : scope.find? (·.name == name) = none) : replace name v scope = scope := by
  induction scope with
  | nil => rfl
  | cons b rest ih =>
    simp only [List.find?_cons] at missing
    split at missing
    · cases missing
    · next differs =>
      rw [replace, if_neg (by simpa using differs), ih missing]

theorem replace_same {name : String} {scope : List Binding} {b : Binding}
    (found : scope.find? (·.name == name) = some b) : replace name b.value scope = scope := by
  induction scope with
  | nil => cases found
  | cons first rest ih =>
    simp only [List.find?_cons] at found
    split at found
    · next same =>
      obtain rfl := Option.some.inj found
      rw [replace, if_pos same]
    · next differs =>
      rw [replace, if_neg (by simpa using differs), ih found]

theorem replace_append (name : String) (v : Value) (own base : List Binding) :
    replace name v (own ++ base) =
      if (own.find? (·.name == name)).isSome then replace name v own ++ base
      else own ++ replace name v base := by
  induction own with
  | nil => rfl
  | cons b rest ih =>
    by_cases same : (b.name == name) = true
    · simp [replace, same]
    · simp only [Bool.not_eq_true] at same
      simp only [List.cons_append, replace, same, Bool.false_eq_true, if_false, ih,
        List.find?_cons]
      split <;> rfl

variable {base : List Binding} {may below : List String} {m : Machine}

theorem Above.of_scope {m' : Machine} (above : m.Above base may below) (same : m'.scope = m.scope) :
    m'.Above base may below := by
  obtain ⟨own, new, eq, named, allowed⟩ := above
  exact ⟨own, new, same.trans eq, named, allowed⟩

theorem Above.declare (above : m.Above base may below) {b : Binding} (allowed : b.name ∈ may) :
    (m.declare b).Above base may below := by
  obtain ⟨own, new, eq, named, others⟩ := above
  refine ⟨b :: own, b.name :: new, congrArg (b :: ·) eq, congrArg (b.name :: ·) named, ?_⟩
  exact List.cons_subset.mpr ⟨allowed, others⟩

/-- A variable with another name than those given may get any value. -/
theorem Above.replace (above : m.Above base may below) {name : String}
    (other : ∀ b ∈ base, b.name ≠ name) (v : Value) :
    ({ m with scope := replace name v m.scope } : Machine).Above base may below := by
  obtain ⟨own, new, eq, named, allowed⟩ := above
  have missing : base.find? (·.name == name) = none := by
    apply List.find?_eq_none.mpr
    intro b member
    simpa using other b member
  simp only [eq, replace_append, replace_missing v missing]
  split
  · exact ⟨_, new, rfl, (replace_names name v own).trans named, allowed⟩
  · exact ⟨own, new, rfl, named, allowed⟩

/-- A variable may get any value if a given one that it may be gets the value it has. -/
theorem Above.replace_found (above : m.Above base may below) {name : String} {b : Binding}
    {v : Value} (found : m.find? name = some b) (same : b ∈ base → v = b.value) :
    ({ m with scope := Machine.replace name v m.scope } : Machine).Above base may below := by
  obtain ⟨own, new, eq, named, allowed⟩ := above
  rw [find?, eq, List.find?_append] at found
  simp only [eq, replace_append]
  cases mine : own.find? (·.name == name) with
  | some b' => exact ⟨_, new, rfl, (replace_names name v own).trans named, allowed⟩
  | none =>
    rw [mine, Option.none_or] at found
    obtain rfl := same (List.mem_of_find?_eq_some found)
    exact ⟨own, new, by simp [replace_same found], named, allowed⟩

theorem Above.assign (above : m.Above base may below) {name : String}
    (other : ∀ b ∈ base, b.name ≠ name) (v : Value) :
    (m.assign name v).Above base may below := by
  unfold Machine.assign
  split
  · exact above
  · exact above.replace other v

theorem Above.share (above : m.Above base may below) {name : String}
    (other : ∀ b ∈ base, b.name ≠ name) {v : Value} {m' : Machine}
    (shared : m.share name = some (v, m')) : m'.Above base may below := by
  obtain ⟨b, -, eq⟩ := Option.map_eq_some_iff.mp shared
  split at eq
  · cases eq
    exact above
  · cases eq
    exact (above.replace other _).of_scope rfl

end Machine

end RuleService.Snippet
