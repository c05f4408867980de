import Mathlib.Algebra.Group.Nat.Defs
import RuleService.Double.Basic

namespace RuleService.Double

theorem nearestQuotient_one (n : Nat) : nearestQuotient n 1 = n := by
  simp [nearestQuotient, Nat.mod_one]

/-- Rounding to the nearest does not go below the whole part. -/
theorem div_le_nearestQuotient (num den : Nat) : num / den ≤ nearestQuotient num den := by
  unfold nearestQuotient
  dsimp only
  split <;> omega

/-- Scaling to 53 bits before the point. -/
theorem exponentFor_one {n : Nat} (positive : n ≠ 0) : exponentFor n 1 = (n.log2 : Int) - 52 := by
  have above : 2 ^ n.log2 ≤ n := Nat.log2_self_le positive
  have one : Nat.log2 1 = 0 := by decide
  have e₀ : max ((n.log2 : Int) - Nat.log2 1 - 53) leastExponent = (n.log2 : Int) - 53 := by
    rw [one, leastExponent]
    omega
  unfold exponentFor
  rw [e₀]
  by_cases large : 53 ≤ n.log2
  · have exponent : ((n.log2 : Int) - 53).toNat = n.log2 - 53 := by omega
    have split : 2 ^ (n.log2 - 53) * 2 ^ 53 = 2 ^ n.log2 := by
      rw [← Nat.pow_add, Nat.sub_add_cancel large]
    have fits : 1 * 2 ^ (n.log2 - 53) * 2 ^ 53 ≤ n := by omega
    simp only [scaled, if_pos (show (0 : Int) ≤ (n.log2 : Int) - 53 by omega), exponent, Nat.pow_eq]
    rw [if_pos fits]
    omega
  · have exponent : (-((n.log2 : Int) - 53)).toNat = 53 - n.log2 := by omega
    have split : 2 ^ n.log2 * 2 ^ (53 - n.log2) = 2 ^ 53 := by
      rw [← Nat.pow_add]
      congr 1
      omega
    have fits : 1 * 2 ^ 53 ≤ n * 2 ^ (53 - n.log2) := by
      rw [Nat.one_mul, ← split]
      exact Nat.mul_le_mul_right _ above
    simp only [scaled, if_neg (show ¬ (0 : Int) ≤ (n.log2 : Int) - 53 by omega), exponent, Nat.pow_eq]
    rw [if_pos fits]
    omega

theorem scaled_down (num k : Nat) (bits : k ≤ 52) :
    scaled num 1 ((k : Int) - 52) = (num * 2 ^ (52 - k), 1) := by
  have exponent : (-((k : Int) - 52)).toNat = 52 - k := by omega
  unfold scaled
  split
  · obtain rfl : k = 52 := by omega
    simp
  · rw [exponent, Nat.pow_eq]

/-- A small integer is kept with 53 bits. -/
theorem ofInt_small {n : Int} (nonzero : n ≠ 0) (small : n.natAbs < 2 ^ 53) :
    ofInt n = .finite (n < 0) (n.natAbs * 2 ^ (52 - n.natAbs.log2))
      ((n.natAbs.log2 : Int) - 52) := by
  have positive : n.natAbs ≠ 0 := by omega
  have bits : n.natAbs.log2 < 53 := (Nat.log2_lt positive).mpr small
  have fits : n.natAbs * 2 ^ (52 - n.natAbs.log2) < 2 ^ 53 := by
    have above : n.natAbs < 2 ^ (n.natAbs.log2 + 1) := Nat.lt_log2_self
    calc n.natAbs * 2 ^ (52 - n.natAbs.log2)
        < 2 ^ (n.natAbs.log2 + 1) * 2 ^ (52 - n.natAbs.log2) :=
          Nat.mul_lt_mul_of_pos_right above (Nat.two_pow_pos _)
      _ = 2 ^ 53 := by
        rw [← Nat.pow_add]
        congr 1
        omega
  rw [ofInt, ofRatio, if_neg positive, exponentFor_one positive]
  simp only [scaled_down _ _ (Nat.le_of_lt_succ bits), nearestQuotient_one]
  rw [pack, Nat.pow_eq, if_neg (Nat.ne_of_lt fits)]
  have finite : ¬ greatestExponent < (n.natAbs.log2 : Int) - 52 := by
    rw [greatestExponent]
    omega
  simp only [if_neg finite]

theorem splitMagnitude_small (num k : Nat) (bits : k ≤ 52) :
    splitMagnitude (num * 2 ^ (52 - k)) ((k : Int) - 52) = (num, false) := by
  have exponent : (-((k : Int) - 52)).toNat = 52 - k := by omega
  unfold splitMagnitude
  split
  · obtain rfl : k = 52 := by omega
    simp
  · dsimp only
    rw [exponent, Nat.pow_eq, Nat.mul_div_cancel _ (Nat.two_pow_pos _), Nat.mul_mod_left]
    rfl

/-- A small integer is whole, and is its own whole part. -/
theorem ofInt_exact {n : Int} (small : n.natAbs < 2 ^ 53) :
    (ofInt n).isWhole = true ∧ (ofInt n).truncate? = some n := by
  by_cases nonzero : n = 0
  · subst nonzero
    simp [ofInt, ofRatio, zero, isWhole, truncate?, splitMagnitude]
  have positive : n.natAbs ≠ 0 := by omega
  have bits : n.natAbs.log2 < 53 := (Nat.log2_lt positive).mpr small
  rw [ofInt_small nonzero small]
  simp only [isWhole, truncate?, splitMagnitude_small _ _ (Nat.le_of_lt_succ bits)]
  refine ⟨rfl, ?_⟩
  by_cases negative : n < 0
  · simp only [negative, decide_true, if_true]
    congr 1
    omega
  · simp only [negative, decide_false, Bool.false_eq_true, if_false]
    congr 1
    omega

theorem truncate_pack {negative : Bool} {m : Nat} {e w : Int} (bits : 2 ^ 52 ≤ m) (whole : 0 ≤ e)
    (cut : (pack negative m e).truncate? = some w) : 2 ^ 52 ≤ w.natAbs := by
  have large (m : Nat) (e : Int) (bits : 2 ^ 52 ≤ m) (whole : 0 ≤ e)
      (cut : (if greatestExponent < e then .infinite negative
        else finite negative m e : Double).truncate? = some w) : 2 ^ 52 ≤ w.natAbs := by
    split at cut
    · cases cut
    · have grown : m ≤ m * 2 ^ e.toNat := Nat.le_mul_of_pos_right m (Nat.two_pow_pos _)
      simp only [truncate?, splitMagnitude, if_pos whole, Nat.pow_eq, Option.some.injEq] at cut
      split at cut <;> omega
  by_cases full : m = 2 ^ 53
  · rw [pack, Nat.pow_eq, if_pos full] at cut
    exact large (2 ^ 52) (e + 1) (Nat.le_refl _) (by omega) cut
  · rw [pack, Nat.pow_eq, if_neg full] at cut
    exact large m e bits whole cut

/-- The whole part of a great integer is great. -/
theorem ofInt_large {n w : Int} (large : 2 ^ 53 ≤ n.natAbs) (cut : (ofInt n).truncate? = some w) :
    2 ^ 52 ≤ w.natAbs := by
  have positive : n.natAbs ≠ 0 := by omega
  have bits : 53 ≤ n.natAbs.log2 := (Nat.le_log2 positive).mpr large
  have exponent : ((n.natAbs.log2 : Int) - 52).toNat = n.natAbs.log2 - 52 := by omega
  have quotient : 2 ^ 52 ≤ n.natAbs / (1 * 2 ^ (n.natAbs.log2 - 52)) := by
    rw [Nat.one_mul, Nat.le_div_iff_mul_le (Nat.two_pow_pos _), ← Nat.pow_add]
    have split : 52 + (n.natAbs.log2 - 52) = n.natAbs.log2 := by omega
    rw [split]
    exact Nat.log2_self_le positive
  have rounded := Nat.le_trans quotient (div_le_nearestQuotient ..)
  have whole : (0 : Int) ≤ (n.natAbs.log2 : Int) - 52 := by omega
  rw [ofInt, ofRatio, if_neg positive, exponentFor_one positive] at cut
  simp only [scaled, if_pos whole, exponent, Nat.pow_eq] at cut
  exact truncate_pack rounded whole cut

end RuleService.Double
