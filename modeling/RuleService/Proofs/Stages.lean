import RuleService.Proofs.Outcome
import RuleService.Reply.Dispatch

namespace RuleService

open Effect

/-- Rules that are passed over in turn, since their conditions do not hold. -/
inductive Skipped (h : Host) (ctx : Context) : List Rule → State → State → Prop
  | nil (s : State) : Skipped h ctx [] s s
  | cons {rule : Rule} {rules : List Rule} {s t u : State}
      (no : (rule.applies h.engine ctx).outcome s = (.ok false, t))
      (rest : Skipped h ctx rules t u) : Skipped h ctx (rule :: rules) s u

/-- The first rule that applies, and the state in which it is found to. -/
inductive Chosen (h : Host) (ctx : Context) (rules : List Rule) (s : State) (rule : Rule)
    (t : State) : Prop
  | intro {before after : List Rule} {u : State} (split : rules = before ++ rule :: after)
      (skipped : Skipped h ctx before s u)
      (yes : (rule.applies h.engine ctx).outcome u = (.ok true, t))

/-- A rule whose condition fails before any rule is found to apply. -/
inductive Stuck (h : Host) (ctx : Context) (rules : List Rule) (s : State) (f : Failure)
    (t : State) : Prop
  | intro {before after : List Rule} {rule : Rule} {u : State}
      (split : rules = before ++ rule :: after) (skipped : Skipped h ctx before s u)
      (failed : (rule.applies h.engine ctx).outcome u = (.error f, t))

/-- The value that a rule is expanded to, and the state with the headers in it. -/
inductive Drafted (h : Host) (ctx : Context) (rule : Rule) (s : State) : Json → State → Prop
  | intro {t u : State} {v : Json}
      (prepared : (Rule.runScript h ctx rule.before).outcome s = (.ok (), t))
      (expanded : (interpolateDocument h ctx rule.template).outcome t = (.ok v, u)) :
      Drafted h ctx rule s v
        { u with response := Recipe.setHeaders (Recipe.ofJson v).headers u.response }

variable {h : Host} {ctx : Context} {rules : List Rule} {rule : Rule} {s t : State} {f : Failure}

namespace Rule

theorem outcome_resolve_cons (place : Nat) :
    (resolve h.engine ctx place (rule :: rules)).outcome s =
      match (rule.applies h.engine ctx).outcome s with
      | (.ok true, t) => (.ok (some (place, rule)), t)
      | (.ok false, t) => (resolve h.engine ctx (place + 1) rules).outcome t
      | (.error f, t) => (.error f, t) := by
  rw [resolve, outcome_bind]
  rcases (rule.applies h.engine ctx).outcome s with ⟨r, t⟩
  cases r with
  | error f => rfl
  | ok yes => cases yes <;> rfl

/-- Rules that are passed over do not matter to the choice, except for the state that they leave. -/
theorem resolve_skipped {before : List Rule} (skipped : Skipped h ctx before s t) (place : Nat)
    (rules : List Rule) :
    (resolve h.engine ctx place (before ++ rules)).outcome s =
      (resolve h.engine ctx (place + before.length) rules).outcome t := by
  induction skipped generalizing place with
  | nil => rfl
  | cons no rest ih =>
    rw [List.cons_append, outcome_resolve_cons, no, List.length_cons, ← Nat.add_assoc,
      Nat.add_right_comm]
    exact ih (place + 1)

/-- Either all rules are passed over, or one is chosen, or a condition fails. -/
theorem resolve_cases (h : Host) (ctx : Context) (place : Nat) (rules : List Rule) (s : State) :
    (∃ t, Skipped h ctx rules s t ∧
      (resolve h.engine ctx place rules).outcome s = (.ok none, t)) ∨
    (∃ found rule t, Chosen h ctx rules s rule t ∧
      (resolve h.engine ctx place rules).outcome s = (.ok (some (found, rule)), t)) ∨
    ∃ f t, Stuck h ctx rules s f t ∧
      (resolve h.engine ctx place rules).outcome s = (.error f, t) := by
  induction rules generalizing place s with
  | nil => exact .inl ⟨s, .nil s, rfl⟩
  | cons rule rules ih =>
    rw [outcome_resolve_cons]
    rcases hr : (rule.applies h.engine ctx).outcome s with ⟨r, t⟩
    match r with
    | .ok true => exact .inr (.inl ⟨place, rule, t, ⟨(List.nil_append _).symm, .nil s, hr⟩, rfl⟩)
    | .error f => exact .inr (.inr ⟨f, t, ⟨(List.nil_append _).symm, .nil s, hr⟩, rfl⟩)
    | .ok false =>
      obtain ⟨u, rest, hu⟩ | ⟨found, chosen, u, ⟨split, skipped, yes⟩, hu⟩ |
        ⟨f, u, ⟨split, skipped, failed⟩, hu⟩ := ih (place + 1) t
      · exact .inl ⟨u, .cons hr rest, hu⟩
      · exact .inr (.inl ⟨found, chosen, u,
          ⟨congrArg (rule :: ·) split, .cons hr skipped, yes⟩, hu⟩)
      · exact .inr (.inr ⟨f, u, ⟨congrArg (rule :: ·) split, .cons hr skipped, failed⟩, hu⟩)

theorem resolve_none_iff (place : Nat) :
    (resolve h.engine ctx place rules).outcome s = (.ok none, t) ↔ Skipped h ctx rules s t := by
  constructor
  · intro hs
    obtain ⟨u, skipped, hu⟩ | ⟨found, rule, u, -, hu⟩ | ⟨f, u, -, hu⟩ :=
      resolve_cases h ctx place rules s
    · obtain rfl : u = t := by simpa using hu.symm.trans hs
      exact skipped
    · simp [hu] at hs
    · simp [hu] at hs
  · intro skipped
    simpa [resolve] using resolve_skipped skipped place []

theorem resolve_some_iff (place : Nat) :
    (∃ found, (resolve h.engine ctx place rules).outcome s = (.ok (some (found, rule)), t)) ↔
      Chosen h ctx rules s rule t := by
  constructor
  · rintro ⟨found, hs⟩
    obtain ⟨u, -, hu⟩ | ⟨_, chosen, u, choice, hu⟩ | ⟨f, u, -, hu⟩ :=
      resolve_cases h ctx place rules s
    · simp [hu] at hs
    · obtain ⟨⟨-, rfl⟩, rfl⟩ : (_ ∧ chosen = rule) ∧ u = t := by simpa using hu.symm.trans hs
      exact choice
    · simp [hu] at hs
  · rintro ⟨rfl, skipped, yes⟩
    rw [resolve_skipped skipped, outcome_resolve_cons, yes]
    exact ⟨_, rfl⟩

theorem resolve_error_iff (place : Nat) :
    (resolve h.engine ctx place rules).outcome s = (.error f, t) ↔ Stuck h ctx rules s f t := by
  constructor
  · intro hs
    obtain ⟨u, -, hu⟩ | ⟨found, rule, u, -, hu⟩ | ⟨g, u, stuck, hu⟩ :=
      resolve_cases h ctx place rules s
    · simp [hu] at hs
    · simp [hu] at hs
    · obtain ⟨rfl, rfl⟩ : g = f ∧ u = t := by simpa using hu.symm.trans hs
      exact stuck
  · rintro ⟨rfl, skipped, failed⟩
    rw [resolve_skipped skipped, outcome_resolve_cons, failed]

theorem runFirst_error_iff :
    (runFirst h ctx rules).outcome s = (.error f, t) ↔
      Stuck h ctx rules s f t ∨
      (Skipped h ctx rules s t ∧ f = .unresolved ctx.request.method ctx.request.path) ∨
      ∃ rule u, Chosen h ctx rules s rule u ∧ (rule.run h ctx).outcome u = (.error f, t) := by
  rw [runFirst, bind_error_iff, resolve_error_iff]
  refine or_congr_right ?_
  constructor
  · rintro ⟨_ | ⟨found, rule⟩, u, hr, hs⟩
    · obtain ⟨rfl, rfl⟩ : _ = f ∧ u = t := by simpa using hs
      exact .inl ⟨(resolve_none_iff 0).mp hr, rfl⟩
    · exact .inr ⟨rule, u, (resolve_some_iff 0).mp ⟨found, hr⟩, hs⟩
  · rintro (⟨skipped, rfl⟩ | ⟨rule, u, chosen, hs⟩)
    · exact ⟨none, t, (resolve_none_iff 0).mpr skipped, rfl⟩
    · obtain ⟨found, hr⟩ := (resolve_some_iff 0).mpr chosen
      exact ⟨some (found, rule), u, hr, hs⟩

theorem run_ok_iff :
    (rule.run h ctx).outcome s = (.ok (), t) ↔
      ∃ made u v, Drafted h ctx rule s made u ∧
        ((Recipe.ofJson made).ending.perform h ctx).outcome u = (.ok (), v) ∧
        (runScript h ctx rule.after).outcome v = (.ok (), t) := by
  simp only [run, bind_ok_iff, outcome_reply]
  constructor
  · rintro ⟨_, t₁, prepared, v, t₂, expanded, _, t₃, headers, _, t₄, ended, finished⟩
    cases headers
    exact ⟨_, _, t₄, ⟨prepared, expanded⟩, ended, finished⟩
  · rintro ⟨made, t₃, t₄, drafted, ended, finished⟩
    cases drafted with
    | intro prepared expanded =>
      exact ⟨(), _, prepared, _, _, expanded, (), _, rfl, (), t₄, ended, finished⟩

end Rule

namespace Ending

/-- Whether a file is sent as a page. -/
def isPage (path : String) : Prop :=
  foldName (Path.extension path) = "html" ∨ foldName (Path.extension path) = "htm"

def isDocument (path : String) : Prop := foldName (Path.extension path) = "json"

theorem fileText_page (path content : String) (kind : isPage path) :
    fileText h ctx path (foldName (Path.extension path)) content =
      Json.display <$> expand h.engine ctx content := by
  have html : (foldName (Path.extension path) == "html" ||
      foldName (Path.extension path) == "htm") = true := by simpa [isPage] using kind
  rw [fileText, html, if_pos rfl]

theorem fileText_document (path content : String) (kind : isDocument path) :
    fileText h ctx path (foldName (Path.extension path)) content =
      match Json.parse content with
      | .ok v => Json.render <$> interpolateDocument h ctx v
      | .error why => throw (.unreadable path ("invalid JSON: " ++ why)) := by
  rw [fileText, show foldName (Path.extension path) = "json" from kind]
  cases Json.parse content <;> simp

theorem fileText_other (path content : String) (notPage : ¬ isPage path)
    (notDocument : ¬ isDocument path) :
    fileText h ctx path (foldName (Path.extension path)) content = pure content := by
  simp_all [fileText, isPage, isDocument]

end Ending

end RuleService
