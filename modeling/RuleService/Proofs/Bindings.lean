import Mathlib.Data.List.Basic
import RuleService.Named

namespace RuleService

variable {β : Type} {name : String} {v : β}

theorem lookup_reverse_cons (b : String × β) (bs : List (String × β)) :
    (b :: bs).reverse.lookup name =
      (bs.reverse.lookup name).or (if name = b.1 then some b.2 else none) := by
  rw [List.reverse_cons, List.lookup_append, lookup_cons_if, List.lookup_nil]

theorem lookup_reverse_none_iff {bs : List (String × β)} :
    bs.reverse.lookup name = none ↔ ∀ (i : Nat) (w : β), bs[i]? ≠ some (name, w) := by
  induction bs with
  | nil => simp
  | cons b bs ih =>
    rw [lookup_reverse_cons, Option.or_eq_none_iff, ih]
    constructor
    · rintro ⟨later, here⟩ i w found
      cases i with
      | zero =>
        obtain rfl : b = (name, w) := by simpa using found
        simp at here
      | succ i => exact later i w (by simpa using found)
    · intro absent
      refine ⟨fun i w found => absent (i + 1) w (by simpa using found), ?_⟩
      rw [if_neg]
      rintro rfl
      exact absent 0 b.2 rfl

/-- The last binding of a name, by its place. -/
theorem lookup_reverse_iff {bs : List (String × β)} :
    bs.reverse.lookup name = some v ↔
      ∃ i : Nat, bs[i]? = some (name, v) ∧ ∀ j, i < j → ∀ w, bs[j]? ≠ some (name, w) := by
  induction bs with
  | nil => simp
  | cons b bs ih =>
    rw [lookup_reverse_cons, Option.or_eq_some_iff, ih, lookup_reverse_none_iff]
    constructor
    · rintro (⟨i, found, last⟩ | ⟨absent, here⟩)
      · refine ⟨i + 1, by simpa using found, fun j behind w other => ?_⟩
        obtain ⟨j, rfl⟩ : ∃ k, j = k + 1 := ⟨j - 1, by omega⟩
        exact last j (by omega) w (by simpa using other)
      · have first : b = (name, v) := by
          split at here
          · next same => rw [same, ← Option.some.inj here]
          · cases here
        refine ⟨0, by simp [first], fun j behind w other => ?_⟩
        obtain ⟨j, rfl⟩ : ∃ k, j = k + 1 := ⟨j - 1, by omega⟩
        exact absent j w (by simpa using other)
    · rintro ⟨i, found, last⟩
      cases i with
      | zero =>
        obtain rfl : b = (name, v) := by simpa using found
        refine .inr ⟨fun i w other => ?_, by simp⟩
        exact last (i + 1) (by omega) w (by simpa using other)
      | succ i =>
        refine .inl ⟨i, by simpa using found, fun j behind w other => ?_⟩
        exact last (j + 1) (by omega) w (by simpa using other)

theorem lookup_none {bs : List (String × β)} (free : name ∉ bs.map (·.1)) :
    bs.lookup name = none := by
  apply List.lookup_eq_none_iff.mpr
  intro entry member
  have differs : name ≠ entry.1 := by
    rintro rfl
    exact free (List.mem_map_of_mem member)
  simpa using differs

/-- Where each name is bound once, its first binding is the last. -/
theorem lookup_reverse_of_nodup {bs : List (String × β)} (once : (bs.map (·.1)).Nodup) :
    bs.reverse.lookup name = bs.lookup name := by
  induction bs with
  | nil => rfl
  | cons b bs ih =>
    obtain ⟨fresh, once⟩ := List.nodup_cons.mp once
    rw [lookup_reverse_cons, lookup_cons_if, ih once]
    split
    · next same => rw [same, lookup_none fresh, Option.none_or]
    · exact Option.or_none

namespace Named

/-- Of several values of one name the last one is kept. -/
theorem get?_putAll (xs : Named β) (more : List (String × β)) (name : String) :
    (xs.putAll more).get? name = (more.reverse.lookup name).or (xs.get? name) := by
  induction more generalizing xs with
  | nil => simp [putAll]
  | cons entry more ih =>
    have rest : xs.putAll (entry :: more) = (xs.put entry.1 entry.2).putAll more := rfl
    rw [rest, ih, lookup_reverse_cons, Option.or_assoc, get?_put]
    congr 1
    split <;> simp

theorem nodup_keys_put {xs : Named β} (once : xs.keys.Nodup) (key : String) (v : β) :
    (xs.put key v).keys.Nodup := by
  rw [keys_put]
  split
  · exact once
  · next fresh =>
    refine List.nodup_append.mpr ⟨once, by simp, fun k member other added => ?_⟩
    rintro rfl
    exact fresh (List.mem_singleton.mp added ▸ member)

theorem nodup_keys_putAll {xs : Named β} (once : xs.keys.Nodup) (more : List (String × β)) :
    (xs.putAll more).keys.Nodup := by
  induction more generalizing xs with
  | nil => exact once
  | cons entry more ih => exact ih (nodup_keys_put once entry.1 entry.2)

theorem nodup_keys_ofList (pairs : List (String × β)) : (ofList pairs).keys.Nodup := by
  refine nodup_keys_putAll ?_ pairs
  exact List.nodup_nil

theorem get?_ofList (pairs : List (String × β)) (name : String) :
    (ofList pairs).get? name = pairs.reverse.lookup name := by
  rw [ofList, get?_putAll]
  exact Option.or_none

theorem mem_iff_get? {xs : Named β} (once : xs.keys.Nodup) {name : String} {v : β} :
    (name, v) ∈ xs ↔ xs.get? name = some v := by
  refine ⟨fun listed => ?_, fun found => ?_⟩
  · obtain ⟨before, after, rfl⟩ := List.append_of_mem listed
    have fresh : name ∉ before.map (·.1) := by
      intro earlier
      rw [keys, List.map_append, List.nodup_append] at once
      exact once.2.2 name earlier name (by simp) rfl
    rw [get?, List.lookup_append, lookup_none fresh, lookup_cons_if]
    simp
  · obtain ⟨before, after, rfl, -⟩ := List.lookup_eq_some_iff.mp found
    simp

end Named

end RuleService
