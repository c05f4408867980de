import Mathlib.Algebra.Order.Field.Power
import Mathlib.Algebra.Order.Round
import Mathlib.Data.Rat.Floor
import Mathlib.Tactic.FieldSimp
import Mathlib.Tactic.Linarith
import Mathlib.Tactic.NormNum
import Mathlib.Tactic.Positivity
import RuleService.Double.Numeral
import RuleService.Proofs.Exactness

namespace RuleService.Double

/-- The ratio that a finite number is. -/
def value? : Double → Option ℚ
  | finite s m e => some ((if s then -1 else 1) * (m * 2 ^ e))
  | _ => none

/-- Half a unit beyond the greatest finite number. The tie goes to the infinity. -/
def overflow : ℚ := 2 ^ 1024 - 2 ^ 970

/-- What a magnitude is rounded to. -/
inductive Rounded (negative : Bool) (x : ℚ) : Double → Prop
  | infinite (beyond : overflow ≤ x) : Rounded negative x (.infinite negative)
  | finite {m : Nat} {e : Int} (below : x < overflow)
      (keeps : ∀ k : Nat, k ≤ 2 ^ 53 → (k : ℚ) ≤ x → (k : ℚ) ≤ m * 2 ^ e) :
      Rounded negative x (.finite negative m e)

theorem nearestQuotient_le_succ (num den : Nat) : nearestQuotient num den ≤ num / den + 1 := by
  unfold nearestQuotient
  dsimp only
  split <;> omega

/-- An even number is reached from half a unit below it on. -/
theorem le_nearestQuotient_iff {num den j : Nat} (positive : 0 < den) (even : j % 2 = 0) :
    j ≤ nearestQuotient num den ↔ 2 * (den * j) ≤ 2 * num + den := by
  have split : den * (num / den) + num % den = num := Nat.div_add_mod num den
  have rest : num % den < den := Nat.mod_lt num positive
  have low := div_le_nearestQuotient num den
  have high := nearestQuotient_le_succ num den
  rcases Nat.lt_trichotomy j (num / den + 1) with below | reached | above
  · have product : den * j ≤ den * (num / den) := Nat.mul_le_mul_left den (by omega)
    omega
  · have odd : num / den % 2 = 1 := by omega
    have product : den * j = den * (num / den) + den := by rw [reached, Nat.mul_succ]
    rw [product, reached]
    unfold nearestQuotient
    simp only [odd, beq_self_eq_true, Bool.and_true, Bool.or_eq_true, decide_eq_true_eq, beq_iff_eq]
    split <;> omega
  · have product : den * (num / den + 2) ≤ den * j := Nat.mul_le_mul_left den (by omega)
    rw [Nat.mul_add] at product
    omega

/-- Between which powers of two a ratio lies. -/
theorem log2_bounds {num den : Nat} (hn : num ≠ 0) (hd : den ≠ 0) :
    (2 : ℚ) ^ ((num.log2 : Int) - den.log2 - 1) < num / den ∧
      (num : ℚ) / den < 2 ^ ((num.log2 : Int) - den.log2 + 1) := by
  have positive : (0 : ℚ) < den := by exact_mod_cast Nat.pos_of_ne_zero hd
  have num_low : (2 : ℚ) ^ num.log2 ≤ num := by exact_mod_cast Nat.log2_self_le hn
  have num_high : (num : ℚ) < 2 ^ (num.log2 + 1) := by exact_mod_cast Nat.lt_log2_self
  have den_low : (2 : ℚ) ^ den.log2 ≤ den := by exact_mod_cast Nat.log2_self_le hd
  have den_high : (den : ℚ) < 2 ^ (den.log2 + 1) := by exact_mod_cast Nat.lt_log2_self
  have two : (2 : ℚ) ≠ 0 := by norm_num
  constructor
  · rw [lt_div_iff₀ positive]
    calc (2 : ℚ) ^ ((num.log2 : Int) - den.log2 - 1) * den
        < 2 ^ ((num.log2 : Int) - den.log2 - 1) * 2 ^ (den.log2 + 1) :=
          mul_lt_mul_of_pos_left den_high (by positivity)
      _ = 2 ^ num.log2 := by
        rw [← zpow_natCast, ← zpow_natCast, ← zpow_add₀ two]
        congr 1
        push_cast
        ring
      _ ≤ num := num_low
  · rw [div_lt_iff₀ positive]
    calc (num : ℚ) < 2 ^ (num.log2 + 1) := num_high
      _ = 2 ^ ((num.log2 : Int) - den.log2 + 1) * 2 ^ den.log2 := by
        rw [← zpow_natCast, ← zpow_natCast, ← zpow_add₀ two]
        congr 1
        push_cast
        ring
      _ ≤ 2 ^ ((num.log2 : Int) - den.log2 + 1) * den :=
          mul_le_mul_of_nonneg_left den_low (by positivity)

theorem scaled_eq (num : Nat) {den : Nat} (hd : den ≠ 0) (e : Int) :
    (scaled num den e).2 ≠ 0 ∧
      ((scaled num den e).1 : ℚ) / (scaled num den e).2 = num / den / 2 ^ e := by
  unfold scaled
  split
  · next up =>
    obtain ⟨k, rfl⟩ := Int.eq_ofNat_of_zero_le up
    refine ⟨Nat.mul_ne_zero hd (by simp), ?_⟩
    simp [div_div]
  · next down =>
    obtain ⟨k, rfl⟩ : ∃ k : Nat, e = -k := ⟨(-e).toNat, by omega⟩
    refine ⟨hd, ?_⟩
    simp [mul_div_right_comm]

theorem le_div_two_pow_iff (x : ℚ) (j e : Int) : 2 ^ j ≤ x / 2 ^ e ↔ 2 ^ (j + e) ≤ x := by
  rw [le_div_iff₀ (by positivity), ← zpow_add₀ (by norm_num)]

/-- Scaled by the exponent for it, a ratio has at most 53 bits before the point, and no fewer unless
the exponent is the least one. -/
theorem exponentFor_bounds {num den : Nat} (hn : num ≠ 0) (hd : den ≠ 0) :
    leastExponent ≤ exponentFor num den ∧ (num : ℚ) / den < 2 ^ (53 + exponentFor num den) ∧
      (exponentFor num den = leastExponent ∨ 2 ^ (52 + exponentFor num den) ≤ (num : ℚ) / den) := by
  obtain ⟨low, high⟩ := log2_bounds hn hd
  have grows {i j : Int} (le : i ≤ j) : (2 : ℚ) ^ i ≤ 2 ^ j := zpow_le_zpow_right₀ (by norm_num) le
  unfold exponentFor
  generalize (num.log2 : Int) - den.log2 = k at *
  generalize he : max (k - 53) leastExponent = e
  obtain ⟨positive, ratio⟩ := scaled_eq num hd e
  have den_positive : (0 : ℚ) < (scaled num den e).2 := by exact_mod_cast Nat.pos_of_ne_zero positive
  have reached : (scaled num den e).2 * Nat.pow 2 53 ≤ (scaled num den e).1 ↔
      (2 : ℚ) ^ (53 + e) ≤ num / den := by
    rw [← le_div_two_pow_iff, ← ratio, le_div_iff₀ den_positive, mul_comm, Nat.pow_eq]
    exact_mod_cast Iff.rfl
  simp only [reached]
  generalize (num : ℚ) / den = x at *
  split
  · next full =>
    refine ⟨by omega, lt_of_lt_of_le high (grows (by omega)), .inr ?_⟩
    exact le_trans (grows (by omega)) full
  · next fits =>
    refine ⟨by omega, not_le.mp fits, ?_⟩
    rcases le_total (k - 53) leastExponent with least | normal
    · exact .inl (by omega)
    · exact .inr (le_trans (grows (by omega)) low.le)

theorem overflow_eq : overflow = (2 ^ 54 - 1) * 2 ^ (970 : Int) := by
  have split : (2 : ℚ) ^ 1024 = 2 ^ 54 * 2 ^ 970 := by rw [← pow_add]
  rw [overflow, split, zpow_ofNat, sub_mul, one_mul]

theorem overflow_pos : 0 < overflow := by
  rw [overflow_eq]
  exact mul_pos (by norm_num) (by positivity)

/-- The greatest number of units that a significand comes to is the next power of two. -/
theorem pack_rounded {negative : Bool} {q : Nat} {e : Int} {x : ℚ}
    (beyond : overflow ≤ x ↔ greatestExponent < e ∨ e = greatestExponent ∧ q = 2 ^ 53)
    (keeps : ∀ k : Nat, k ≤ 2 ^ 53 → (k : ℚ) ≤ x → (k : ℚ) ≤ q * 2 ^ e) :
    Rounded negative x (pack negative q e) := by
  unfold pack
  rw [Nat.pow_eq]
  by_cases full : q = 2 ^ 53
  · have carried : (q : ℚ) * 2 ^ e = (2 ^ 52 : Nat) * 2 ^ (e + 1) := by
      rw [full, zpow_add_one₀ (by norm_num)]
      push_cast
      ring
    simp only [if_pos full]
    split
    · next great => exact .infinite (beyond.mpr (by omega))
    · next small =>
      refine .finite (not_le.mp fun h => small ?_) fun k bits le => carried ▸ keeps k bits le
      have := beyond.mp h
      omega
  · simp only [if_neg full]
    split
    · next great => exact .infinite (beyond.mpr (.inl great))
    · next small =>
      refine .finite (not_le.mp fun h => small ?_) keeps
      have := beyond.mp h
      omega

section Units

variable {n d : Nat} {e : Int} (positive : 0 < d) (high : n < d * 2 ^ 53)
  (low : e = leastExponent ∨ d * 2 ^ 52 ≤ n)

include positive high

theorem nearestQuotient_le : nearestQuotient n d ≤ 2 ^ 53 := by
  have quotient : n / d < 2 ^ 53 := (Nat.div_lt_iff_lt_mul positive).mpr (by omega)
  have := nearestQuotient_le_succ n d
  omega

theorem ratio_lt : (n : ℚ) / d < 2 ^ 53 := by
  rw [div_lt_iff₀ (by exact_mod_cast positive), mul_comm]
  exact_mod_cast high

include low

theorem overflow_le_iff : overflow ≤ n / d * 2 ^ e ↔
    greatestExponent < e ∨ e = greatestExponent ∧ nearestQuotient n d = 2 ^ 53 := by
  have d_positive : (0 : ℚ) < d := by exact_mod_cast positive
  have double : (2 : ℚ) ^ (971 : Int) = 2 * 2 ^ (970 : Int) := by
    rw [← zpow_one_add₀ (by norm_num)]
    norm_num
  have step {i j : Int} (le : i ≤ j) : (2 : ℚ) ^ i ≤ 2 ^ j := zpow_le_zpow_right₀ (by norm_num) le
  have unit : (0 : ℚ) < 2 ^ (970 : Int) := by positivity
  rw [overflow_eq, greatestExponent]
  constructor
  · intro beyond
    have large : 971 ≤ e := by
      by_contra small
      have below : (n : ℚ) / d * 2 ^ e < 2 ^ 53 * 2 ^ (970 : Int) :=
        mul_lt_mul (ratio_lt positive high) (step (by omega)) (by positivity) (by norm_num)
      have above : (2 : ℚ) ^ 53 * 2 ^ (970 : Int) ≤ (2 ^ 54 - 1) * 2 ^ (970 : Int) :=
        mul_le_mul_of_nonneg_right (by norm_num) unit.le
      exact absurd beyond (not_le.mpr (below.trans_le above))
    rcases large.lt_or_eq with great | rfl
    · exact .inl great
    · refine .inr ⟨rfl, Nat.le_antisymm (nearestQuotient_le positive high) ?_⟩
      rw [double, ← mul_assoc, mul_le_mul_iff_left₀ unit, div_mul_eq_mul_div, le_div_iff₀ d_positive] at beyond
      rw [le_nearestQuotient_iff positive (by norm_num)]
      have : ((2 * (d * 2 ^ 53) : Nat) : ℚ) ≤ (2 * n + d : Nat) := by
        push_cast
        linarith
      exact_mod_cast this
  · rintro (great | ⟨rfl, full⟩)
    · have many : d * 2 ^ 52 ≤ n := low.resolve_left (by rw [leastExponent]; omega)
      have ratio : (2 : ℚ) ^ 52 ≤ n / d := by
        rw [le_div_iff₀ d_positive, mul_comm]
        exact_mod_cast many
      calc ((2 : ℚ) ^ 54 - 1) * 2 ^ (970 : Int) ≤ 2 ^ 53 * 2 ^ (971 : Int) := by
            rw [double, ← mul_assoc]
            exact mul_le_mul_of_nonneg_right (by norm_num) unit.le
        _ = 2 ^ 52 * 2 ^ (1 + 971 : Int) := by
            rw [zpow_one_add₀ (by norm_num)]
            ring
        _ ≤ n / d * 2 ^ e :=
            mul_le_mul ratio (step (by omega)) (zpow_nonneg (by norm_num) _) (ratio.trans' (by norm_num))
    · have reached := (le_nearestQuotient_iff positive (by norm_num)).mp full.ge
      rw [double, ← mul_assoc, mul_le_mul_iff_left₀ unit, div_mul_eq_mul_div, le_div_iff₀ d_positive]
      have : ((2 * (d * 2 ^ 53) : Nat) : ℚ) ≤ (2 * n + d : Nat) := by exact_mod_cast reached
      push_cast at this
      linarith

/-- Of units of two to some power, which a ratio comes to with 53 bits, the nearest number of them. -/
theorem units_rounded (negative : Bool) :
    Rounded negative (n / d * 2 ^ e) (pack negative (nearestQuotient n d) e) := by
  have d_positive : (0 : ℚ) < d := by exact_mod_cast positive
  refine pack_rounded (overflow_le_iff positive high low) fun k bits le => ?_
  rcases le_or_gt e 0 with down | up
  · obtain ⟨j, rfl⟩ : ∃ j : Nat, e = -j := ⟨(-e).toNat, by omega⟩
    rw [zpow_neg, zpow_natCast, ← div_eq_mul_inv, le_div_iff₀ (by positivity)] at le ⊢
    rw [le_div_iff₀ d_positive] at le
    have reached : k * 2 ^ j ≤ nearestQuotient n d := by
      refine le_trans ?_ (div_le_nearestQuotient n d)
      rw [Nat.le_div_iff_mul_le positive]
      exact_mod_cast le
    exact_mod_cast reached
  · have many : 2 ^ 52 ≤ nearestQuotient n d := by
      refine le_trans ?_ (div_le_nearestQuotient n d)
      rw [Nat.le_div_iff_mul_le positive]
      rw [leastExponent] at low
      omega
    have great : (2 : ℚ) ≤ 2 ^ e := by
      simpa using zpow_le_zpow_right₀ (a := (2 : ℚ)) (by norm_num) up
    calc (k : ℚ) ≤ 2 ^ 53 := by exact_mod_cast bits
      _ = 2 ^ 52 * 2 := by norm_num
      _ ≤ nearestQuotient n d * 2 ^ e :=
        mul_le_mul (by exact_mod_cast many) great (by norm_num) (by positivity)

end Units

theorem ofRatio_eq (negative : Bool) {num den n d : Nat} {e : Int} (hn : num ≠ 0)
    (exponent : exponentFor num den = e) (units : scaled num den e = (n, d)) :
    ofRatio negative num den = pack negative (nearestQuotient n d) e := by
  rw [ofRatio, if_neg hn, exponent]
  simp only [units]

theorem ofRatio_rounded (negative : Bool) (num : Nat) {den : Nat} (hd : den ≠ 0) :
    Rounded negative (num / den) (ofRatio negative num den) := by
  by_cases hn : num = 0
  · rw [hn, ofRatio, if_pos rfl]
    refine .finite ?_ fun k _ le => by simpa using le
    simpa using overflow_pos
  obtain ⟨least, high, low⟩ := exponentFor_bounds hn hd
  generalize exponent : exponentFor num den = e at *
  obtain ⟨positive, ratio⟩ := scaled_eq num hd e
  rcases units : scaled num den e with ⟨n, d⟩
  rw [ofRatio_eq negative hn exponent units]
  rw [units] at positive ratio
  dsimp only at positive ratio
  have d_positive : (0 : ℚ) < d := by exact_mod_cast Nat.pos_of_ne_zero positive
  rw [← not_le, ← le_div_two_pow_iff, ← ratio, le_div_iff₀ d_positive] at high
  rw [← le_div_two_pow_iff, ← ratio, le_div_iff₀ d_positive] at low
  have same : (num : ℚ) / den = n / d * 2 ^ e := by
    rw [ratio, div_mul_cancel₀ _ (by positivity)]
  rw [same]
  refine units_rounded (Nat.pos_of_ne_zero positive) ?_ (low.imp_right fun le => ?_) negative
  · rw [not_le, mul_comm] at high
    exact_mod_cast high
  · rw [mul_comm] at le
    exact_mod_cast le

theorem digitCount_bounds {n : Nat} (positive : n ≠ 0) :
    n < 10 ^ digitCount n ∧ 10 ^ digitCount n ≤ 10 * n := by
  have some : 0 < (Nat.toDigits 10 n).length := Nat.length_toDigits_pos
  rw [digitCount, if_neg positive]
  refine ⟨(Nat.length_toDigits_le_iff (by norm_num) some).mp le_rfl, ?_⟩
  by_contra short
  obtain ⟨k, length⟩ : ∃ k, (Nat.toDigits 10 n).length = k + 1 :=
    ⟨_, (Nat.sub_one_add_one some.ne').symm⟩
  rw [length, pow_succ] at short
  rcases Nat.eq_zero_or_pos k with rfl | more
  · omega
  · have := (Nat.length_toDigits_le_iff (b := 10) (by norm_num) more).mpr (show n < 10 ^ k by omega)
    omega

theorem overflow_le_ten_pow : overflow ≤ 10 ^ (310 : Int) := by
  have powers : (2 ^ 1024 : Nat) ≤ 10 ^ 310 := by decide +kernel
  calc overflow ≤ 2 ^ 1024 := sub_le_self _ (by positivity)
    _ ≤ 10 ^ (310 : Int) := by exact_mod_cast powers

/-- Whole numbers of 53 bits do not overflow. -/
theorem lt_overflow {k : Nat} (bits : k ≤ 2 ^ 53) : (k : ℚ) < overflow := by
  have unit : (1 : ℚ) ≤ 2 ^ (970 : Int) := one_le_zpow₀ (by norm_num) (by norm_num)
  calc (k : ℚ) ≤ 2 ^ 53 := by exact_mod_cast bits
    _ < 2 ^ 54 - 1 := by norm_num
    _ ≤ (2 ^ 54 - 1) * 2 ^ (970 : Int) := le_mul_of_one_le_right (by norm_num) unit
    _ = overflow := overflow_eq.symm

/-- Decimals are rounded as the ratios that they are, also those that are not looked at digit by digit. -/
theorem ofDecimal_rounded (negative : Bool) (digits : Nat) (e : Int) :
    Rounded negative (digits * 10 ^ e) (ofDecimal negative digits e) := by
  have step {i j : Int} (le : i ≤ j) : (10 : ℚ) ^ i ≤ 10 ^ j := zpow_le_zpow_right₀ (by norm_num) le
  unfold ofDecimal
  split
  · next none =>
    subst none
    refine .finite ?_ fun k _ le => by simpa using le
    simpa using overflow_pos
  next some =>
  obtain ⟨below, reached⟩ := digitCount_bounds some
  have ten : (10 : ℚ) ≠ 0 := by norm_num
  dsimp only
  split_ifs with great small whole
  · refine .infinite (overflow_le_ten_pow.trans ?_)
    have tenth : (10 : ℚ) ^ digitCount digits ≤ 10 * digits := by exact_mod_cast reached
    have tenfold : (10 : ℚ) ^ (311 : Int) ≤ 10 * (digits * 10 ^ e) := by
      calc (10 : ℚ) ^ (311 : Int) ≤ 10 ^ (e + digitCount digits) := step (by omega)
        _ = 10 ^ digitCount digits * 10 ^ e := by rw [zpow_add₀ ten, zpow_natCast, mul_comm]
        _ ≤ 10 * digits * 10 ^ e := mul_le_mul_of_nonneg_right tenth (zpow_nonneg (by norm_num) e)
        _ = 10 * (digits * 10 ^ e) := mul_assoc ..
    rw [show (311 : Int) = 1 + 310 by rfl, zpow_one_add₀ ten] at tenfold
    exact le_of_mul_le_mul_left tenfold (by norm_num)
  · have fraction : (digits : ℚ) * 10 ^ e < 1 := by
      have power : (digits : ℚ) < 10 ^ digitCount digits := by exact_mod_cast below
      calc (digits : ℚ) * 10 ^ e < 10 ^ digitCount digits * 10 ^ e :=
            mul_lt_mul_of_pos_right power (zpow_pos (by norm_num) e)
        _ = 10 ^ (e + digitCount digits) := by rw [zpow_add₀ ten, zpow_natCast, mul_comm]
        _ ≤ 1 := by simpa using step (show e + digitCount digits ≤ 0 by omega)
    refine .finite (fraction.trans (by simpa using lt_overflow (k := 1) (by norm_num))) fun k _ le => ?_
    have none : k = 0 := Nat.lt_one_iff.mp (by exact_mod_cast le.trans_lt fraction)
    simp [none]
  · obtain ⟨k, rfl⟩ := Int.eq_ofNat_of_zero_le whole
    simpa using ofRatio_rounded negative (digits * 10 ^ k) one_ne_zero
  · obtain ⟨k, rfl⟩ : ∃ k : Nat, e = -k := ⟨(-e).toNat, by omega⟩
    have positive : 10 ^ k ≠ 0 := (Nat.pow_pos (by norm_num)).ne'
    simpa [div_eq_mul_inv] using ofRatio_rounded negative digits positive

theorem ceil_ratio (m : Nat) {d : Nat} (positive : 0 < d) :
    ⌈(m : ℚ) / d⌉ = if m % d != 0 then ((m / d : Nat) : Int) + 1 else (m / d : Nat) := by
  have d_positive : (0 : ℚ) < d := by exact_mod_cast positive
  have split : d * (m / d) + m % d = m := Nat.div_add_mod m d
  have rest : m % d < d := Nat.mod_lt m positive
  generalize m / d = w at *
  generalize m % d = r at *
  subst split
  rw [Int.ceil_eq_iff, lt_div_iff₀ d_positive, div_le_iff₀ d_positive]
  by_cases cut : r = 0
  · rw [if_neg (by simp [cut]), cut]
    push_cast
    constructor <;> linarith
  · have some : (0 : ℚ) < r := by exact_mod_cast Nat.pos_of_ne_zero cut
    have rest : (r : ℚ) < d := by exact_mod_cast rest
    rw [if_pos (by simp [cut])]
    push_cast
    constructor <;> linarith

/-- The whole part, and the number to go to when a fraction is cut off. -/
theorem splitMagnitude_eq (m : Nat) (e : Int) :
    ⌊(m : ℚ) * 2 ^ e⌋ = (splitMagnitude m e).1 ∧
      ⌈(m : ℚ) * 2 ^ e⌉ = if (splitMagnitude m e).2 then ((splitMagnitude m e).1 : Int) + 1
        else (splitMagnitude m e).1 := by
  unfold splitMagnitude
  split
  · next whole =>
    obtain ⟨k, rfl⟩ := Int.eq_ofNat_of_zero_le whole
    have natural : (m : ℚ) * 2 ^ (k : Int) = (m * 2 ^ k : Nat) := by
      rw [zpow_natCast]
      push_cast
      rfl
    rw [natural, Int.floor_natCast, Int.ceil_natCast]
    exact ⟨rfl, rfl⟩
  · next fraction =>
    obtain ⟨k, rfl⟩ : ∃ k : Nat, e = -k := ⟨(-e).toNat, by omega⟩
    have quotient : (m : ℚ) * 2 ^ (-(k : Int)) = (m : ℚ) / (2 ^ k : Nat) := by
      rw [zpow_neg, zpow_natCast, div_eq_mul_inv]
      push_cast
      rfl
    rw [quotient, Rat.floor_natCast_div_natCast, ceil_ratio m (Nat.two_pow_pos k), neg_neg,
      Int.toNat_natCast, Nat.pow_eq]
    exact ⟨rfl, rfl⟩

theorem ceil?_eq {d : Double} {x : ℚ} (number : d.value? = some x) : d.ceil? = some ⌈x⌉ := by
  cases d with
  | nan | infinite => cases number
  | finite s m e =>
    obtain ⟨floor, ceil⟩ := splitMagnitude_eq m e
    obtain rfl : _ = x := Option.some.inj number
    cases s with
    | true => simp [ceil?, floor, Int.ceil_neg]
    | false => simp [ceil?, ceil]

end RuleService.Double
