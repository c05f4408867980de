namespace RuleService

/-- Values by name, in the order in which the names first came. -/
abbrev Named (α : Type) := List (String × α)

theorem lookup_cons_if {α : Type} {name : String} (b : String × α) (bs : List (String × α)) :
    (b :: bs).lookup name = if name = b.1 then some b.2 else bs.lookup name := by
  rw [List.lookup_cons]
  by_cases same : name = b.1
  · rw [if_pos same, beq_iff_eq.mpr same]
  · rw [if_neg same, beq_eq_false_iff_ne.mpr same]

namespace Named

variable {α : Type}

def get? (xs : Named α) (key : String) : Option α := xs.lookup key

def keys (xs : Named α) : List String := xs.map (·.1)

/-- Replaces the value of a name in place, or adds the name at the end. -/
def put : Named α → String → α → Named α
  | [], key, v => [(key, v)]
  | (k, old) :: rest, key, v =>
    if k == key then (k, v) :: rest else (k, old) :: put rest key v

/-- Puts values in order; a repeated name keeps its first place and its last value. -/
def putAll (xs : Named α) (more : List (String × α)) : Named α :=
  more.foldl (fun acc entry => acc.put entry.1 entry.2) xs

def ofList (pairs : List (String × α)) : Named α := putAll [] pairs

theorem get?_put (xs : Named α) (key : String) (v : α) (name : String) :
    (xs.put key v).get? name = if name = key then some v else xs.get? name := by
  induction xs with
  | nil => exact lookup_cons_if (key, v) []
  | cons entry xs ih =>
    obtain ⟨k, old⟩ := entry
    simp only [get?] at ih ⊢
    by_cases here : k = key
    · subst here
      rw [put, if_pos (beq_self_eq_true k), lookup_cons_if, lookup_cons_if]
      by_cases same : name = k <;> simp [same]
    · rw [put, if_neg (by simpa using here), lookup_cons_if, lookup_cons_if, ih]
      by_cases same : name = k
      · have other : name ≠ key := same ▸ here
        simp [same, here]
      · simp [same]

@[simp] theorem get?_put_self (xs : Named α) (key : String) (v : α) :
    (xs.put key v).get? key = some v := by
  rw [get?_put, if_pos rfl]

theorem get?_put_of_ne (xs : Named α) {key other : String} (v : α) (h : other ≠ key) :
    (xs.put key v).get? other = xs.get? other := by
  rw [get?_put, if_neg h]

theorem keys_put (xs : Named α) (key : String) (v : α) :
    (xs.put key v).keys = if key ∈ xs.keys then xs.keys else xs.keys ++ [key] := by
  induction xs with
  | nil => rfl
  | cons entry xs ih =>
    obtain ⟨k, old⟩ := entry
    simp only [keys] at ih ⊢
    by_cases here : k = key
    · simp [put, here]
    · have other : key ≠ k := fun same => here same.symm
      simp only [put, beq_iff_eq, here, if_false, List.map_cons, ih, List.mem_cons, other,
        false_or]
      exact apply_ite (k :: ·) ..

end Named

end RuleService
