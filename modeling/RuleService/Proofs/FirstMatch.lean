import RuleService.Proofs.Repetition
import RuleService.Proofs.Stages

namespace RuleService

open Effect

/-- The values that count as false. -/
inductive Json.Falsy : Json → Prop
  | null : Falsy .null
  | no : Falsy (.bool false)
  | zero : Falsy (.int 0)
  | floatZero (negative : Bool) (exponent : Int) : Falsy (.float (.finite negative 0 exponent))
  | nan : Falsy (.float .nan)
  | empty : Falsy (.str "")

theorem Json.isTruthy_eq_false_iff {v : Json} : v.isTruthy = false ↔ v.Falsy := by
  constructor
  · intro falsy
    cases v with
    | null => exact .null
    | bool b =>
      cases b with
      | false => exact .no
      | true => cases falsy
    | int n =>
      obtain rfl : n = 0 := by simpa [isTruthy] using falsy
      exact .zero
    | float d =>
      cases d with
      | nan => exact .nan
      | infinite => cases falsy
      | finite negative significand exponent =>
        cases significand with
        | zero => exact .floatZero negative exponent
        | succ => cases falsy
    | str text =>
      obtain rfl : text = "" := by simpa [isTruthy] using falsy
      exact .empty
    | arr | obj => cases falsy
  · rintro ⟨⟩ <;> rfl

/-- That the condition of a rule is falsy, and the state that it leaves. -/
inductive Rejected (h : Host) (ctx : Context) (rule : Rule) (s : State) : State → Prop
  | falsy {code : String} {v : Json} {t : State} (asked : rule.condition = some code)
      (value : (evaluate h.engine ctx code).outcome s = (.ok v, t)) (falsy : v.Falsy) :
      Rejected h ctx rule s t

/-- That a rule has no condition or a truthy one. -/
inductive Holds (h : Host) (ctx : Context) (rule : Rule) (s : State) : State → Prop
  | always (free : rule.condition = none) : Holds h ctx rule s s
  | truthy {code : String} {v : Json} {t : State} (asked : rule.condition = some code)
      (value : (evaluate h.engine ctx code).outcome s = (.ok v, t)) (truthy : ¬ v.Falsy) :
      Holds h ctx rule s t

/-- Rules whose conditions are falsy, each evaluated over what the one before left. -/
inductive Passed (h : Host) (ctx : Context) : List Rule → State → State → Prop
  | nil (s : State) : Passed h ctx [] s s
  | cons {rule : Rule} {rules : List Rule} {s t u : State} (first : Rejected h ctx rule s t)
      (rest : Passed h ctx rules t u) : Passed h ctx (rule :: rules) s u

variable {h : Host} {ctx : Context} {rules : List Rule} {rule : Rule} {s t : State} {f : Failure}

namespace Rule

theorem applies_asked {code : String} (asked : rule.condition = some code) :
    rule.applies h.engine ctx = Json.isTruthy <$> evaluate h.engine ctx code := by
  rw [applies, asked]

theorem applies_free (free : rule.condition = none) : rule.applies h.engine ctx = pure true := by
  rw [applies, free]

theorem applies_false_iff :
    (rule.applies h.engine ctx).outcome s = (.ok false, t) ↔ Rejected h ctx rule s t := by
  cases asked : rule.condition with
  | none =>
    rw [applies_free asked, outcome_pure]
    constructor
    · rintro ⟨⟩
    · rintro ⟨given, -, -⟩
      cases asked.symm.trans given
  | some code =>
    rw [applies_asked asked, map_ok_iff]
    constructor
    · rintro ⟨v, value, falsy⟩
      exact ⟨asked, value, Json.isTruthy_eq_false_iff.mp falsy⟩
    · rintro ⟨given, value, falsy⟩
      cases asked.symm.trans given
      exact ⟨_, value, Json.isTruthy_eq_false_iff.mpr falsy⟩

theorem applies_true_iff :
    (rule.applies h.engine ctx).outcome s = (.ok true, t) ↔ Holds h ctx rule s t := by
  cases asked : rule.condition with
  | none =>
    rw [applies_free asked, outcome_pure]
    constructor
    · rintro ⟨⟩
      exact .always asked
    · rintro (_ | given)
      · rfl
      · cases asked.symm.trans given
  | some code =>
    rw [applies_asked asked, map_ok_iff]
    constructor
    · rintro ⟨v, value, truthy⟩
      refine .truthy asked value fun falsy => ?_
      rw [Json.isTruthy_eq_false_iff.mpr falsy] at truthy
      cases truthy
    · rintro (free | ⟨given, value, truthy⟩)
      · cases asked.symm.trans free
      · cases asked.symm.trans given
        refine ⟨_, value, ?_⟩
        rwa [← Bool.not_eq_false, Json.isTruthy_eq_false_iff]

theorem applies_error_iff :
    (rule.applies h.engine ctx).outcome s = (.error f, t) ↔
      ∃ code, rule.condition = some code ∧
        (evaluate h.engine ctx code).outcome s = (.error f, t) := by
  cases asked : rule.condition with
  | none =>
    rw [applies_free asked, outcome_pure]
    simp
  | some code =>
    rw [applies_asked asked, map_error_iff]
    simp

theorem skipped_iff_passed : Skipped h ctx rules s t ↔ Passed h ctx rules s t := by
  constructor
  · intro skipped
    induction skipped with
    | nil s => exact .nil s
    | cons no _ ih => exact .cons (applies_false_iff.mp no) ih
  · intro passed
    induction passed with
    | nil s => exact .nil s
    | cons first _ ih => exact .cons (applies_false_iff.mpr first) ih

/-- The choice among all rules is made by those that follow the ones that are passed over. -/
theorem resolve_passed {before : List Rule} (passed : Passed h ctx before s t) (rules : List Rule) :
    (resolve h.engine ctx 0 (before ++ rules)).outcome s =
      (resolve h.engine ctx before.length rules).outcome t := by
  rw [resolve_skipped (skipped_iff_passed.mpr passed), Nat.zero_add]

end Rule

/-- The first rule that has no condition or a truthy one is found, none if all conditions are falsy, and
a condition that fails before is the failure. The rules after the one that decides make no difference. -/
structure FirstMatch (h : Host) (ctx : Context) (rules : List Rule) (s : State) : Prop where
  found : ∀ k rule t, (Rule.resolve h.engine ctx 0 rules).outcome s = (.ok (some (k, rule)), t) ↔
    ∃ before after u, rules = before ++ rule :: after ∧ before.length = k ∧
      Passed h ctx before s u ∧ Holds h ctx rule u t
  missing : ∀ t, (Rule.resolve h.engine ctx 0 rules).outcome s = (.ok none, t) ↔
    Passed h ctx rules s t
  failed : ∀ f t, (Rule.resolve h.engine ctx 0 rules).outcome s = (.error f, t) ↔
    ∃ before rule after u code, rules = before ++ rule :: after ∧ Passed h ctx before s u ∧
      rule.condition = some code ∧ (evaluate h.engine ctx code).outcome u = (.error f, t)
  others : ∀ before rule after u, rules = before ++ rule :: after → Passed h ctx before s u →
    (∀ t, ¬ Rejected h ctx rule u t) → ∀ others,
      (Rule.resolve h.engine ctx 0 (before ++ rule :: others)).outcome s =
        (Rule.resolve h.engine ctx 0 rules).outcome s

/-- The rule that is carried out for a request is the first that matches. -/
theorem Rule.resolve_firstMatch (h : Host) (ctx : Context) (rules : List Rule) (s : State) :
    FirstMatch h ctx rules s := by
  refine ⟨fun k rule t => ?_, fun t => ?_, fun f t => ?_, ?_⟩
  · constructor
    · intro found
      obtain ⟨rfl, skipped, yes⟩ := (Rule.resolve_some_iff 0).mp ⟨k, found⟩
      have passed := Rule.skipped_iff_passed.mp skipped
      rw [Rule.resolve_passed passed, Rule.outcome_resolve_cons, yes] at found
      obtain ⟨rfl, -⟩ : _ = k ∧ rule = rule := by simpa using found
      exact ⟨_, _, _, rfl, rfl, passed, Rule.applies_true_iff.mp yes⟩
    · rintro ⟨before, after, u, rfl, rfl, passed, holds⟩
      rw [Rule.resolve_passed passed, Rule.outcome_resolve_cons, Rule.applies_true_iff.mpr holds]
  · rw [Rule.resolve_none_iff, Rule.skipped_iff_passed]
  · rw [Rule.resolve_error_iff]
    constructor
    · rintro ⟨split, skipped, failed⟩
      obtain ⟨code, asked, fails⟩ := Rule.applies_error_iff.mp failed
      exact ⟨_, _, _, _, code, split, Rule.skipped_iff_passed.mp skipped, asked, fails⟩
    · rintro ⟨before, rule, after, u, code, split, passed, asked, fails⟩
      exact ⟨split, Rule.skipped_iff_passed.mpr passed,
        Rule.applies_error_iff.mpr ⟨code, asked, fails⟩⟩
  · rintro before rule after u rfl passed decides others
    simp only [Rule.resolve_passed passed, Rule.outcome_resolve_cons]
    rcases verdict : (rule.applies h.engine ctx).outcome u with ⟨r, t⟩
    match r with
    | .ok true => rfl
    | .error f => rfl
    | .ok false => exact absurd (Rule.applies_false_iff.mp verdict) (decides t)

/-- A rule that asks for the value of a name. -/
def asking (name : String) : Rule where
  definition := []
  condition := some name
  before := none
  after := none

theorem Rule.resolve_firstMatch_second :
    let ctx : Context := { locals := [("no", .str ""), ("yes", .int 7)] }
    (Rule.resolve recalling.engine ctx 0 [asking "no", asking "yes", asking "unbound"]).outcome {} =
      (.ok (some (1, asking "yes")),
        { journal := [.evaluated "yes" ctx.locals, .evaluated "no" ctx.locals] }) := by
  intro ctx
  have no : (evaluate recalling.engine ctx "no").outcome {} =
      (.ok (.str ""), { journal := [.evaluated "no" ctx.locals] }) := by rfl
  have yes : (evaluate recalling.engine ctx "yes").outcome
      { journal := [.evaluated "no" ctx.locals] } =
      (.ok (.int 7), { journal := [.evaluated "yes" ctx.locals, .evaluated "no" ctx.locals] }) := by
    rfl
  refine ((Rule.resolve_firstMatch recalling ctx _ {}).found 1 (asking "yes") _).mpr ?_
  refine ⟨[asking "no"], [asking "unbound"], _, rfl, rfl, .cons (.falsy rfl no .empty) (.nil _), ?_⟩
  exact .truthy rfl yes nofun

end RuleService
