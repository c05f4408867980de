import RuleService.Proofs.Scopes

namespace RuleService.Snippet

namespace Run

variable {α β : Type} {base : List Binding} {may : List String}

/-- That a run leaves the given variables as they were given, and what it adds to the others are
variables of names that there may be. -/
structure Keeps (base : List Binding) (may : List String) (x : Run α) : Prop where
  above : ∀ m {below}, m.Above base may below → (outcome x m).2.Above base may below

theorem Quiet.keeps {x : Run α} (quiet : Quiet x) : Keeps base may x :=
  ⟨fun m _ above => above.of_scope (quiet.scope m)⟩

theorem Keeps.pure (a : α) : Keeps base may (pure a) := (Quiet.pure a).keeps

theorem Keeps.fail (f : Fault) : Keeps base may (fail f : Run α) := (Quiet.fail f).keeps

theorem Keeps.fail_bind (f : Fault) (next : α → Run β) : Keeps base may (Run.fail f >>= next) :=
  ⟨fun _ _ above => above⟩

theorem Keeps.throw (e : Signal) : Keeps base may (throw e : Run α) := (Quiet.throw e).keeps

theorem Keeps.get : Keeps base may (get : Run Machine) := Quiet.get.keeps

theorem Keeps.resume (r : Except Signal α) : Keeps base may (resume r) := (Quiet.resume r).keeps

theorem Keeps.ofExcept (r : Except Fault α) : Keeps base may (ofExcept r) :=
  (Quiet.ofExcept r).keeps

theorem Keeps.modify {g : Machine → Machine}
    (each : ∀ m {below}, m.Above base may below → (g m).Above base may below) :
    Keeps base may (modify g) := ⟨each⟩

theorem declare_keeps {b : Binding} (allowed : b.name ∈ may) :
    Keeps base may (modify fun m => m.declare b) := .modify fun _ _ above => above.declare allowed

theorem Keeps.observe {x : Run α} (keeps : Keeps base may x) : Keeps base may (observe x) :=
  ⟨keeps.above⟩

/-- What comes after may rely on the result and the machine it came with. -/
theorem Keeps.bind_of {x : Run α} {next : α → Run β} (first : Keeps base may x)
    (later : ∀ m a m' {below}, m.Above base may below → outcome x m = (.ok a, m') →
      m'.Above base may below → (outcome (next a) m').2.Above base may below) :
    Keeps base may (x >>= next) := by
  constructor
  intro m below above
  have before := first.above m above
  rw [outcome_bind]
  cases ended : outcome x m with
  | mk r m' =>
    rw [ended] at before
    cases r with
    | error e => exact before
    | ok a => exact later m a m' above ended before

theorem Keeps.bind_gives {x : Run α} {next : α → Run β} {such : α → Prop}
    (first : Keeps base may x) (gives : Gives x such)
    (later : ∀ a, such a → Keeps base may (next a)) : Keeps base may (x >>= next) :=
  first.bind_of fun m a m' _ _ ended before => (later a (gives.value m a m' ended)).above m' before

theorem Keeps.bind {x : Run α} {next : α → Run β} (first : Keeps base may x)
    (later : ∀ a, Keeps base may (next a)) : Keeps base may (x >>= next) :=
  first.bind_of fun _ a m' _ _ _ before => (later a).above m' before

theorem Keeps.mono {x : Run α} {more : List String} (keeps : Keeps base may x)
    (allowed : may ⊆ more) : Keeps base more x := by
  constructor
  rintro m below ⟨own, new, scope, named, others⟩
  have start : m.Above base may (new ++ below) := ⟨own, [], scope, named, List.nil_subset _⟩
  obtain ⟨own', new', scope', named', added⟩ := keeps.above m start
  refine ⟨own', new' ++ new, scope', by rw [named', List.append_assoc], ?_⟩
  exact List.append_subset.mpr ⟨fun _ member => allowed (added member), others⟩

/-- What a block declares is gone after it, and nothing else. -/
theorem Keeps.inBlock {x : Run α} {within : List String} (keeps : Keeps base within x) :
    Keeps base may (inBlock x) := by
  constructor
  rintro m below ⟨own, new, before, named, allowed⟩
  have start : m.Above base within (new ++ below) := ⟨own, [], before, named, List.nil_subset _⟩
  obtain ⟨own', new', after, named', -⟩ := keeps.above m start
  unfold Run.inBlock
  rw [outcome_bind_ok (outcome_get m), outcome_bind_ok (outcome_get m),
    outcome_bind_ok (outcome_observe x m), outcome_bind_ok (outcome_modify _ _)]
  have lengths : own'.length = new'.length + own.length := by
    have taken := congrArg List.length named
    have left := congrArg List.length named'
    simp only [List.length_map, List.length_append] at taken left
    omega
  have few : own'.length + base.length - (own.length + base.length) ≤ own'.length := by omega
  have count : own'.length + base.length - (own.length + base.length) = new'.length := by omega
  refine ⟨own'.drop new'.length, new, ?_, ?_, allowed⟩
  · simp only [outcome_resume, after, before, List.length_append]
    rw [List.drop_append_of_le_length few, count]
  · rw [List.map_drop, named', List.drop_left]

end Run

end RuleService.Snippet
