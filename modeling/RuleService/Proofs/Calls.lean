import RuleService.Proofs.Runs

namespace RuleService.Snippet

namespace Run

variable {α β : Type}

/-- That a run leaves the variables in scope as they were. -/
structure Quiet (x : Run α) : Prop where
  scope : ∀ m, (outcome x m).2.scope = m.scope

theorem Quiet.pure (a : α) : Quiet (pure a) := ⟨fun _ => rfl⟩

theorem Quiet.throw (e : Signal) : Quiet (throw e : Run α) := ⟨fun _ => rfl⟩

theorem Quiet.fail (f : Fault) : Quiet (fail f : Run α) := ⟨fun _ => rfl⟩

theorem Quiet.get : Quiet (get : Run Machine) := ⟨fun _ => rfl⟩

theorem Quiet.resume (r : Except Signal α) : Quiet (resume r) := ⟨fun _ => rfl⟩

theorem Quiet.ofExcept (r : Except Fault α) : Quiet (ofExcept r) := by
  cases r <;> exact ⟨fun _ => rfl⟩

theorem Quiet.modify {g : Machine → Machine} (same : ∀ m, (g m).scope = m.scope) :
    Quiet (modify g) := ⟨same⟩

theorem Quiet.modifyGet {g : Machine → α × Machine} (same : ∀ m, (g m).2.scope = m.scope) :
    Quiet (modifyGet g : Run α) := ⟨same⟩

theorem Quiet.bind {x : Run α} {next : α → Run β} (first : Quiet x) (later : ∀ a, Quiet (next a)) :
    Quiet (x >>= next) := by
  constructor
  intro m
  have before := first.scope m
  rw [outcome_bind]
  cases ended : outcome x m with
  | mk r m' =>
    rw [ended] at before
    cases r with
    | error e => exact before
    | ok a => exact ((later a).scope m').trans before

theorem outcome_observe (x : Run α) (m : Machine) :
    outcome (observe x) m = (.ok (outcome x m).1, (outcome x m).2) := rfl

theorem Quiet.observe {x : Run α} (quiet : Quiet x) : Quiet (observe x) :=
  ⟨quiet.scope⟩

end Run

open Run

namespace Functions

theorem overItems_quiet {σ : Type} {f : σ → Nat → Value → Run (σ × Bool)}
    (each : ∀ s i v, Quiet (f s i v)) (items : List Value) (init : σ) :
    Quiet (overItems items init f) := by
  constructor
  intro m
  change (scanItems f items 0 init m).2.scope = m.scope
  generalize 0 = i
  induction items generalizing i init m with
  | nil => rfl
  | cons v vs ih =>
    have step := (each init i v).scope m
    rw [outcome] at step
    rw [scanItems]
    cases ended : (f init i v).run m with
    | mk r m' =>
      rw [ended] at step
      cases r with
      | error e => exact step
      | ok a =>
        obtain ⟨s, more⟩ := a
        cases more with
        | true => exact (ih s m' (i + 1)).trans step
        | false => exact step

theorem insertSorted_quiet {later : Value → Value → Run Bool} (each : ∀ v w, Quiet (later v w))
    (v : Value) (items : List Value) : Quiet (insertSorted later v items) := by
  induction items with
  | nil => exact .pure _
  | cons w ws ih =>
    rw [insertSorted]
    refine .bind (each w v) fun r => ?_
    cases r with
    | true => exact .pure _
    | false => exact .bind ih fun _ => .pure _

theorem foldlM_quiet {σ : Type} {f : σ → Value → Run σ} (each : ∀ s v, Quiet (f s v))
    (items : List Value) (init : σ) : Quiet (items.foldlM f init) := by
  induction items generalizing init with
  | nil => exact .pure _
  | cons v vs ih =>
    rw [List.foldlM_cons]
    exact .bind (each init v) fun s => ih s

theorem keptEntries_quiet {call : Value → List Value → Value → Run Value}
    (each : ∀ f args extra, Quiet (call f args extra)) (f : Value) (entries : Value.Entries) :
    Quiet (calling?.go call f entries) := by
  induction entries with
  | nil => exact .pure _
  | cons e rest ih =>
    rw [calling?.go]
    refine .bind (each _ _ _) fun r => .bind ih fun split => ?_
    exact .pure _

theorem calling_quiet {call : Value → List Value → Value → Run Value}
    (each : ∀ f args extra, Quiet (call f args extra)) {name : String} {args : List Value}
    {r : Run Reply} (known : calling? call name args = some r) : Quiet r := by
  unfold calling? at known
  split at known <;> cases known
  all_goals
    repeat' first
      | exact .pure _
      | exact each _ _ _
      | exact keptEntries_quiet each _ _
      | apply overItems_quiet
      | apply foldlM_quiet
      | apply insertSorted_quiet
      | apply Quiet.bind
      | split
      | intro _

end Functions

theorem mapM_quiet {α β : Type} {f : α → Run β} (each : ∀ a, Quiet (f a)) (items : List α) :
    Quiet (items.mapM f) := by
  induction items with
  | nil => exact .pure _
  | cons a rest ih =>
    rw [List.mapM_cons]
    exact .bind (each a) fun _ => .bind ih fun _ => .pure _

namespace Helpers

theorem draw_quiet (n : Nat) : Quiet (draw n) := by
  apply Quiet.modifyGet
  intro m
  cases m
  rfl

theorem randomDigits_quiet (len : Int) (characters : String) :
    Quiet (randomDigits len characters) := by
  unfold randomDigits
  refine .bind (mapM_quiet (fun _ => ?_) _) fun _ => .pure _
  exact .bind (draw_quiet _) fun _ => .pure _

theorem randomNumber_quiet (a b : Int) : Quiet (randomNumber a b) := by
  unfold randomNumber
  exact .bind (draw_quiet _) fun _ => .pure _

theorem weightedChoice_quiet (entries : Value.Entries) : Quiet (weightedChoice entries) := by
  unfold weightedChoice
  dsimp only
  split
  · exact .pure _
  · refine .bind (draw_quiet _) fun _ => ?_
    split <;> exact .pure _

theorem call_quiet {name : String} {args : List Value} {r : Run Value}
    (known : call? name args = some r) : Quiet r := by
  unfold call? at known
  split at known <;> first | obtain rfl := Option.some.inj known | cases known
  · split
    · exact .pure _
    · exact .bind (draw_quiet _) fun _ => .pure _
  · exact weightedChoice_quiet _
  · exact randomDigits_quiet _ _
  · exact randomDigits_quiet _ _
  · exact randomDigits_quiet _ _
  · exact randomNumber_quiet _ _
  · exact randomNumber_quiet _ _
  · exact randomNumber_quiet _ _
  · exact .pure _

end Helpers

namespace Interpreter

variable (go : Go) (s : Surroundings)

theorem enter_quiet (params : List String) (body : List Stmt) (args : List Value)
    (this : Option Value) : Quiet (enter go s params body args this) := by
  constructor
  intro m
  rw [enter, outcome_bind_ok (outcome_get m)]
  dsimp only
  split
  · rfl
  · rw [outcome_bind_ok (outcome_set m _), outcome_bind_ok (outcome_observe _ _),
      outcome_bind_ok (outcome_get _), outcome_bind_ok (outcome_set _ _)]
    split
    · rfl
    · exact (Quiet.bind (.resume _) fun _ => .pure _).scope _

theorem callValue_quiet (f : Value) (args : List Value) (this : Option Value) :
    Quiet (callValue go s f args this) := by
  unfold callValue
  split
  · dsimp only
    split
    · exact enter_quiet ..
    · exact .fail _
  · dsimp only
    split
    · exact enter_quiet ..
    · split
      · exact .bind (.ofExcept _) fun _ => .pure _
      · exact .fail _
  · exact .fail _

theorem callWith_quiet (f : Value) (args : List Value) (extra : Value) :
    Quiet (callWith go s f args extra) := by
  unfold callWith
  extract_lets arity
  split
  · exact .bind (callValue_quiet ..) fun _ => .pure _
  · split <;> exact .bind (callValue_quiet ..) fun _ => .pure _

theorem printText_quiet (text : String) : Quiet (printText text) := ⟨fun _ => rfl⟩

theorem special_quiet {name : String} {args : List Value} {r : Run Reply}
    (known : special? go s name args = some r) : Quiet r := by
  unfold special? at known
  split at known <;> first | obtain rfl := Option.some.inj known | cases known
  · exact .bind (printText_quiet _) fun _ => .pure _
  · exact .bind (printText_quiet _) fun _ => .pure _
  · exact .bind (printText_quiet _) fun _ => .pure _
  · exact .bind (printText_quiet _) fun _ => .pure _
  · exact .pure _
  · exact .pure _
  · exact .bind (callValue_quiet ..) fun _ => .pure _
  · exact .pure _
  · exact .bind .get fun _ => .pure _
  · exact .pure _

theorem callBuiltIn_quiet (name : String) (args : List Value) :
    Quiet (callBuiltIn go s name args) := by
  unfold callBuiltIn
  split
  · next r known => exact special_quiet go s known
  · split
    · next r known => exact Functions.calling_quiet (callWith_quiet go s) known
    · split
      · exact .ofExcept _
      · exact .fail _

theorem callNamed_quiet (name : String) (args : List Value) :
    Quiet (callNamed go s name args) := by
  unfold callNamed
  split
  · exact .bind (enter_quiet ..) fun _ => .pure _
  · exact callBuiltIn_quiet ..

theorem callMethod_quiet (target : Value) (name : String) (args : List Value) :
    Quiet (callMethod go s target name args) := by
  have builtIn : Quiet (do
      let r ← callBuiltIn go s name (target :: args)
      return (r.value, r.target.getD target)) := .bind (callBuiltIn_quiet ..) fun _ => .pure _
  unfold callMethod
  dsimp only
  split
  · split
    · exact .bind (callValue_quiet ..) fun _ => .pure _
    · split
      · exact .bind (enter_quiet ..) fun _ => .pure _
      · exact builtIn
  · split
    · exact .bind (enter_quiet ..) fun _ => .pure _
    · exact builtIn

theorem callQualified_quiet (path : List String) (name : String) (args : List Value) :
    Quiet (callQualified go s path name args) := by
  unfold callQualified
  refine .bind .get fun m => ?_
  split
  · exact .fail _
  · cases known : Helpers.call? name args with
    | none => exact .fail _
    | some r => exact Helpers.call_quiet known
  · split
    · exact .bind (enter_quiet ..) fun _ => .pure _
    · exact .fail _

theorem readQualified_quiet (path : List String) (name : String) :
    Quiet (readQualified s path name) := by
  unfold readQualified
  refine .bind .get fun m => ?_
  extract_lets onward
  have onward_quiet (values : List (String × Value)) : Quiet (onward values) := by
    unfold onward
    split
    · exact .pure _
    · exact .fail _
  split
  · exact .bind (.fail _) onward_quiet
  · exact .bind (.pure _) onward_quiet
  · exact .bind (.pure _) onward_quiet

theorem readVariable_quiet (name : String) : Quiet (readVariable name) := by
  unfold readVariable
  refine .bind .get fun m => ?_
  split
  · exact .pure _
  · exact .fail _

theorem loadModule_quiet (text : String) : Quiet (loadModule go s text) := by
  constructor
  intro m
  unfold loadModule
  split
  · rfl
  · dsimp only
    rw [outcome_bind_ok (outcome_get m), outcome_bind_ok (outcome_set m _),
      outcome_bind_ok (outcome_observe _ _), outcome_bind_ok (outcome_get _),
      outcome_bind_ok (outcome_set _ _)]
    split <;> rfl

theorem walk_quiet (assign : Option (Option String × Value)) (steps : List Step) (v : Value) :
    Quiet (walk go s assign steps v) := by
  induction steps generalizing v with
  | nil => exact .pure _
  | cons step rest ih =>
    unfold walk
    extract_lets isLast onward
    clear_value isLast
    have onward_quiet (x : Option Nat × Value) : Quiet (onward x) := by
      unfold onward
      split
      next cell target =>
      extract_lets back inside place
      have back_quiet (r : Except Signal Value × Value) : Quiet (back r) := by
        unfold back
        split
        · exact .bind (.modify fun _ => rfl) fun _ => .pure _
        · exact .pure _
      have inside_quiet (p part : Value) : Quiet (inside p part) :=
        .bind (ih part) fun r => back_quiet _
      have place_quiet (p : Value) : Quiet (place p) := by
        unfold place
        split
        · split <;> exact back_quiet _
        · split
          · exact back_quiet _
          · split
            · exact back_quiet _
            · exact inside_quiet _ _
      have called {after : Except Signal (Value × Value) → Run (Except Signal Value × Value)}
          (name : String) (args : List Value) (each : ∀ r, Quiet (after r)) :
          Quiet (observe (callMethod go s target name args) >>= after) :=
        .bind (.observe (callMethod_quiet ..)) each
      split
      · split
        · exact back_quiet _
        · split
          · exact place_quiet _
          · exact back_quiet _
          · refine called _ _ fun r => ?_
            split
            · exact back_quiet _
            · exact .bind (ih _) fun _ => back_quiet _
      · exact place_quiet _
      · exact place_quiet _
      · split
        · exact back_quiet _
        · split
          · exact back_quiet _
          · exact .bind (ih _) fun _ => back_quiet _
      · refine called _ _ fun r => ?_
        split
        · exact back_quiet _
        · exact .bind (ih _) fun _ => back_quiet _
    split
    · exact .bind .get fun m => .bind (.pure _) onward_quiet
    · exact .bind (.pure _) onward_quiet

end Interpreter

end RuleService.Snippet
