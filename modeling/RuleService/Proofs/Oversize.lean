import RuleService.Proofs.Numerals
import RuleService.Proofs.Pieces
import RuleService.Proofs.Repetition

namespace RuleService

open Effect

/-- A number, or a text that holds a numeral, and the ratio it amounts to. -/
inductive Amounts : Json → ℚ → Prop
  | int (n : Int) : Amounts (.int n) n
  | float {d : Double} {x : ℚ} (number : d.value? = some x) : Amounts (.float d) x
  | text {text : String} {n : Numeral} (held : n.StandsIn text) : Amounts (.str text) n.value

/-- What a count that is no numeral is evaluated to: a number stands for itself, a text with a
placeholder is expanded, and any other text is run as code unless it reads as a number. -/
inductive Evaluated (h : Host) (ctx : Context) : Json → State → Json → State → Prop
  | int {n : Int} {s : State} : Evaluated h ctx (.int n) s (.int n) s
  | float {d : Double} {s : State} : Evaluated h ctx (.float d) s (.float d) s
  | placed {text : String} {v : Json} {s t : State} (placed : hasPlaceholder text = true)
      (value : (expand h.engine ctx text).outcome s = (.ok v, t)) :
      Evaluated h ctx (.str text) s v t
  | code {code : String} {v : Json} {s t : State} (bare : hasPlaceholder code = false)
      (noNumber : Double.parse? (Text.trim code) = none)
      (value : (evaluate h.engine ctx code).outcome s = (.ok v, t)) :
      Evaluated h ctx (.str code) s v t

theorem hasPlaceholder_of_no_dollar {text : String} (none : '$' ∉ text.toList) :
    hasPlaceholder text = false := by
  rw [hasPlaceholder, List.any_eq_false]
  intro piece listed
  cases piece with
  | plain => simp [Piece.isCode]
  | code code =>
    obtain ⟨before, after, rfl⟩ := Piece.placeholder_literal listed
    simp at none

namespace Numeral

theorem magnitude_nonneg (n : Numeral) : 0 ≤ n.magnitude :=
  mul_nonneg (Nat.cast_nonneg _) (zpow_nonneg (by norm_num) _)

theorem eq_magnitude_of_plus (n : Numeral) (plus : (n.sign == .minus) = false) :
    n.value = n.magnitude := by
  unfold value
  cases hs : n.sign with
  | minus => simp [hs] at plus
  | absent | plus => simp [Sign.factor]

/-- A numeral is positive only without a minus, and then it is its magnitude. -/
theorem eq_magnitude (n : Numeral) (positive : 0 < n.value) :
    (n.sign == .minus) = false ∧ n.value = n.magnitude := by
  have nonneg := n.magnitude_nonneg
  have plus : (n.sign == .minus) = false := by
    rw [beq_eq_false_iff_ne]
    intro minus
    rw [value, minus, Sign.factor] at positive
    push_cast at positive
    linarith
  exact ⟨plus, n.eq_magnitude_of_plus plus⟩

end Numeral

namespace Count

theorem ofDouble_of_le {d : Double} {x : ℚ} {k : Nat} (number : d.value? = some x) (le : (k : ℚ) ≤ x)
    (small : k ≤ greatest) : k ≤ ofDouble d := by
  have reached : (k : Int) ≤ ⌈x⌉ := by
    have : (k : ℚ) ≤ ⌈x⌉ := le.trans (Int.le_ceil x)
    exact_mod_cast this
  simp only [ofDouble, Double.ceil?_eq number]
  exact Nat.le_min.mpr ⟨by omega, small⟩

theorem ofDouble_of_rounded {d : Double} {x : ℚ} {k : Nat} (rounded : Double.Rounded false x d)
    (le : (k : ℚ) ≤ x) (small : k ≤ 2 ^ 53) : k ≤ ofDouble d := by
  have below : k ≤ greatest := by
    rw [greatest, Nat.pow_eq]
    omega
  cases rounded with
  | infinite beyond => simpa [ofDouble, Double.ceil?, Double.isNaN, Double.isNegative] using below
  | finite _ keeps =>
    exact ofDouble_of_le rfl (by simpa using keeps k small le) below

/-- A value that amounts to more than the limit has a size above it. -/
theorem size_of_amounts {v : Json} {x : ℚ} (amounts : Amounts v x) (great : 100001 ≤ x) :
    ∃ k, size v = .ok k ∧ 100000 < k := by
  have le : ((100001 : Nat) : ℚ) ≤ x := by exact_mod_cast great
  cases amounts with
  | int n =>
    have positive : 0 ≤ n := by
      have : (0 : ℚ) ≤ n := by linarith
      exact_mod_cast this
    obtain ⟨k, rfl⟩ := Int.eq_ofNat_of_zero_le positive
    have rounded := Double.ofRatio_rounded false k one_ne_zero
    have unsigned : Double.ofInt k = Double.ofRatio false k 1 := by
      rw [Double.ofInt, decide_eq_false (by omega), Int.natAbs_natCast]
    rw [← unsigned, Nat.cast_one, div_one] at rounded
    exact ⟨_, rfl, ofDouble_of_rounded rounded (by simpa using le) (by norm_num)⟩
  | float number => exact ⟨_, rfl, ofDouble_of_le number le (by norm_num [greatest])⟩
  | @text text n held =>
    obtain ⟨d, read, rounded⟩ := held.parse?
    obtain ⟨plus, eq⟩ := n.eq_magnitude (by linarith)
    rw [plus, ← eq] at rounded
    exact ⟨_, by simp only [size, read], ofDouble_of_rounded rounded le (by norm_num)⟩

theorem evaluated_value {h : Host} {ctx : Context} {count v : Json} {s t : State}
    (evaluated : Evaluated h ctx count s v t) :
    ((ofJson count).value h.engine ctx).outcome s = (.ok v, t) := by
  cases evaluated with
  | int | float => rfl
  | placed placed value =>
    rw [ofJson, if_pos placed]
    exact value
  | code bare noNumber value =>
    rw [ofJson, if_neg (by simp [bare]), noNumber]
    exact value

/-- A numeral that stands directly in a count counts as its text does, unless it is rounded to the
infinity: then it counts as zero. -/
theorem direct_value (h : Host) (ctx : Context) {text : String} {n : Numeral} (held : n.StandsIn text)
    (s : State) : ∃ v, ((ofJson (.str text)).value h.engine ctx).outcome s = (.ok v, s) ∧
      (n.value < Double.overflow → size v = size (.str text)) ∧
      (Double.overflow ≤ n.value → size v = .ok 0) := by
  obtain ⟨d, read, rounded⟩ := held.parse?
  have direct : ofJson (.str text) = .known (Json.ofDouble d) := by
    rw [ofJson, if_neg (by simp [hasPlaceholder_of_no_dollar held.no_dollar]), read]
  refine ⟨_, by rw [direct]; rfl, fun small => ?_, fun great => ?_⟩
  · cases rounded with
    | finite => simp [Json.ofDouble, Double.isFinite, size, read]
    | infinite beyond =>
      cases minus : n.sign == .minus with
      | true =>
        rw [minus] at read
        simp [Json.ofDouble, Double.isFinite, size, read, ofDouble, Double.ceil?, Double.isNegative]
      | false =>
        have plus : n.value = n.magnitude := n.eq_magnitude_of_plus minus
        exact absurd beyond (by linarith)
  · obtain ⟨plus, eq⟩ := n.eq_magnitude (Double.overflow_pos.trans_le great)
    cases rounded with
    | infinite => simp [Json.ofDouble, Double.isFinite, size]
    | finite below => exact absurd great (by linarith)

end Count

/-- What a count above the limit does to the command in some fields. Where it is a number, or is evaluated to
a number or to the text of a numeral, the command is refused after the count and before any element. A
numeral that stands directly in the count does as it does through a placeholder, and so is refused, just if
it is below the overflow; from there on it counts as zero. -/
structure GreatCount (h : Host) (ctx : Context) (fields : Fields) (count element : Json) (s : State) :
    Prop where
  evaluated : ∀ v t x, Evaluated h ctx count s v t → Amounts v x → 100001 ≤ x → ∃ message,
    (interpolate h ctx (.obj fields)).outcome s = (.error (.malformed "$array" message), t)
  direct : ∀ text (n : Numeral), count = .str text → n.StandsIn text → 100001 ≤ n.value →
    n.value < Double.overflow → ∃ message,
      (interpolate h ctx (.obj fields)).outcome s = (.error (.malformed "$array" message), s)
  endless : ∀ text (n : Numeral), count = .str text → n.StandsIn text → Double.overflow ≤ n.value →
    (interpolate h ctx (.obj fields)).outcome s = (.ok (some (.arr [])), s)
  placed : ∀ text (n : Numeral), count = .str text → n.StandsIn text →
    ∀ fields' desc' name' placed r, Fields.command? fields' = some (name', .obj desc') →
      h.commands.lookup name' = some .array →
      Named.get? desc' "count" = some (.str placed) →
      Named.get? desc' "element" = some element → hasPlaceholder placed = true →
      (expand h.engine ctx placed).outcome r = (.ok (.str text), s) →
      ((interpolate h ctx (.obj fields')).outcome r = (interpolate h ctx (.obj fields)).outcome s ↔
        n.value < Double.overflow)

section Arrays

variable {h : Host} {ctx : Context} {fields fields' desc desc' : Fields} {name name' : String}
  {count count' element v v' : Json} {r s t : State}

/-- Commands whose counts have the same size do the same with one element. -/
theorem outcome_array_congr (found : Fields.command? fields = some (name, .obj desc))
    (known : h.commands.lookup name = some .array) (hc : Named.get? desc "count" = some count)
    (he : Named.get? desc "element" = some element)
    (counted : ((Count.ofJson count).value h.engine ctx).outcome s = (.ok v, t))
    (found' : Fields.command? fields' = some (name', .obj desc'))
    (known' : h.commands.lookup name' = some .array)
    (hc' : Named.get? desc' "count" = some count')
    (he' : Named.get? desc' "element" = some element)
    (counted' : ((Count.ofJson count').value h.engine ctx).outcome r = (.ok v', t))
    (same : Count.size v = Count.size v') :
    (interpolate h ctx (.obj fields)).outcome s = (interpolate h ctx (.obj fields')).outcome r := by
  have sized (v : Json) : (Except.ok v : Except Failure Json) >>= Count.size = Count.size v := rfl
  rw [outcome_array found known hc he counted, outcome_array found' known' hc' he' counted', sized,
    sized, same]

variable (found : Fields.command? fields = some (name, .obj desc))
  (known : h.commands.lookup name = some .array) (hc : Named.get? desc "count" = some count)
  (he : Named.get? desc "element" = some element)

include found known hc he

theorem array_refused (counted : ((Count.ofJson count).value h.engine ctx).outcome s = (.ok v, t))
    {k : Nat} (size : Count.size v = .ok k) (above : 100000 < k) : ∃ message,
      (interpolate h ctx (.obj fields)).outcome s = (.error (.malformed "$array" message), t) := by
  obtain ⟨message, refused⟩ := Count.check_of_lt above
  have checked : (Except.ok v >>= Count.size >>= Count.check : Except Failure Nat) =
      .error (.malformed "$array" message) := by
    change Count.size v >>= Count.check = _
    rw [size]
    exact refused
  exact ⟨message, by rw [outcome_array found known hc he counted, checked]⟩

theorem array_empty (counted : ((Count.ofJson count).value h.engine ctx).outcome s = (.ok v, t))
    (size : Count.size v = .ok 0) :
    (interpolate h ctx (.obj fields)).outcome s = (.ok (some (.arr [])), t) := by
  have checked : (Except.ok v >>= Count.size >>= Count.check : Except Failure Nat) = .ok 0 := by
    change Count.size v >>= Count.check = _
    rw [size]
    exact Count.check_of_le (Nat.zero_le _)
  rw [outcome_array found known hc he counted, checked]
  rfl

/-- The `$array` command does this with every count above the limit. -/
theorem interpolate_great_count : GreatCount h ctx fields count element s := by
  constructor
  case evaluated =>
    intro v t x evaluated amounts great
    obtain ⟨k, size, above⟩ := Count.size_of_amounts amounts great
    exact array_refused found known hc he (Count.evaluated_value evaluated) size above
  case direct =>
    rintro text n rfl held great small
    obtain ⟨v, counted, like, -⟩ := Count.direct_value h ctx held s
    obtain ⟨k, size, above⟩ := Count.size_of_amounts (.text held) great
    exact array_refused found known hc he counted ((like small).trans size) above
  case endless =>
    rintro text n rfl held endless
    obtain ⟨v, counted, -, zero⟩ := Count.direct_value h ctx held s
    exact array_empty found known hc he counted (zero endless)
  case placed =>
    rintro text n rfl held fields' desc' name' placed r found' known' hc' he' hasCode expanded
    obtain ⟨v, counted, like, zero⟩ := Count.direct_value h ctx held s
    have counted' := Count.evaluated_value (.placed hasCode expanded)
    constructor
    · intro same
      by_contra endless
      have limit : ((100001 : Nat) : ℚ) < Double.overflow := Double.lt_overflow (by norm_num)
      have great : 100001 ≤ n.value := by
        push_cast at limit
        linarith
      obtain ⟨k, size, above⟩ := Count.size_of_amounts (.text held) great
      obtain ⟨message, refused⟩ := array_refused found' known' hc' he' counted' size above
      rw [refused, array_empty found known hc he counted (zero (not_lt.mp endless))] at same
      cases congrArg Prod.fst same
    · intro small
      exact outcome_array_congr found' known' hc' he' counted' found known hc he counted (like small).symm

end Arrays

/-- As many ones as a count says. -/
def ones (count : Json) : Fields := [("$array", .obj [("count", count), ("element", .int 1)])]

theorem ones_command? (count : Json) : Fields.command? (ones count) =
    some ("$array", .obj [("count", count), ("element", .int 1)]) := by
  have isName : Template.isCommandName "$array" = true := by decide
  exact List.find?_cons_of_pos isName

/-- One, with an exponent of three digits. -/
def powerOfTen (a b c : Fin 10) : Numeral where
  sign := .absent
  whole := [1]
  fraction := none
  exponent := some ⟨'e', .absent, [a, b, c], .inl rfl, by simp⟩
  hasDigit := by simp

theorem powerOfTen_value (a b c : Fin 10) :
    (powerOfTen a b c).value = 10 ^ ((digitsValue [a, b, c] : Nat) : Int) := by
  simp [Numeral.value, Numeral.magnitude, powerOfTen, Exponent.value, Sign.factor, digitsValue]

theorem interpolate_great_count_million :
    let ctx : Context := { locals := [("n", .str "1e006")] }
    (∃ message, (interpolate recalling ctx (.obj (ones (.str "1e006")))).outcome {} =
      (.error (.malformed "$array" message), {})) ∧
    ∃ message, (interpolate recalling ctx (.obj (ones (.str "n")))).outcome {} =
      (.error (.malformed "$array" message), { journal := [.evaluated "n" ctx.locals] }) := by
  intro ctx
  have known : recalling.commands.lookup "$array" = some .array := by rfl
  have held : (powerOfTen 0 0 6).StandsIn "1e006" := ⟨[], [], by simp, by decide⟩
  have value : (powerOfTen 0 0 6).value = ((1000000 : Nat) : ℚ) := by
    rw [powerOfTen_value]
    norm_num [digitsValue, Nat.ofDigits]
  have great : 100001 ≤ (powerOfTen 0 0 6).value := by
    rw [value]
    norm_num
  have small : (powerOfTen 0 0 6).value < Double.overflow := by
    rw [value]
    exact Double.lt_overflow (by norm_num)
  have evaluated : Evaluated recalling ctx (.str "n") {} (.str "1e006")
      { journal := [.evaluated "n" ctx.locals] } := .code (by decide) (by rfl) (by rfl)
  constructor
  · exact (interpolate_great_count (ones_command? _) known rfl rfl).direct _ _ rfl held great small
  · exact (interpolate_great_count (ones_command? _) known rfl rfl).evaluated _ _ _ evaluated
      (.text held) great

/-- Not every numeral above the limit is refused: one beyond every finite number is not. -/
theorem interpolate_endless_count :
    ¬ ∀ (h : Host) (ctx : Context) (fields desc : Fields) (name text : String) (element : Json)
        (n : Numeral) (s : State),
      Fields.command? fields = some (name, .obj desc) → h.commands.lookup name = some .array →
      Named.get? desc "count" = some (.str text) → Named.get? desc "element" = some element →
      n.StandsIn text → 100001 ≤ n.value → ∃ message,
        (interpolate h ctx (.obj fields)).outcome s = (.error (.malformed "$array" message), s) := by
  intro refused
  have known : recalling.commands.lookup "$array" = some .array := by rfl
  have held : (powerOfTen 4 0 0).StandsIn "1e400" := ⟨[], [], by simp, by decide⟩
  have grows {j : Int} (le : j ≤ 400) : (10 : ℚ) ^ j ≤ (powerOfTen 4 0 0).value := by
    have exponent : digitsValue [4, 0, 0] = 400 := by norm_num [digitsValue, Nat.ofDigits]
    rw [powerOfTen_value, exponent]
    exact zpow_le_zpow_right₀ (by norm_num) le
  have great : 100001 ≤ (powerOfTen 4 0 0).value :=
    (by norm_num : (100001 : ℚ) ≤ 10 ^ (6 : Int)).trans (grows (by norm_num))
  have endless : Double.overflow ≤ (powerOfTen 4 0 0).value :=
    Double.overflow_le_ten_pow.trans (grows (by norm_num))
  obtain ⟨v, counted, -, zero⟩ := Count.direct_value recalling {} held {}
  have empty := array_empty (ones_command? _) known rfl rfl counted (zero endless)
  obtain ⟨message, failed⟩ := refused recalling {} _ _ _ _ _ _ {} (ones_command? _) known rfl rfl held
    great
  cases (congrArg Prod.fst empty).symm.trans (congrArg Prod.fst failed)

end RuleService
