import RuleService.Context

namespace RuleService.Effect

variable {α β : Type}

/-- The result of some work and the state it leaves. -/
def outcome (work : Effect α) (s : State) : Except Failure α × State := work.run s

@[simp] theorem outcome_pure (a : α) (s : State) :
    outcome (pure a : Effect α) s = (.ok a, s) := rfl

@[simp] theorem outcome_throw (f : Failure) (s : State) :
    outcome (throw f : Effect α) s = (.error f, s) := rfl

@[simp] theorem outcome_record (e : Event) (s : State) :
    outcome (record e) s = (.ok (), s.record e) := rfl

@[simp] theorem outcome_reply (change : Response → Response) (s : State) :
    outcome (reply change) s = (.ok (), { s with response := change s.response }) := rfl

@[simp] theorem outcome_liftExcept (r : Except Failure α) (s : State) :
    outcome (liftExcept r) s = (r, s) := by
  cases r <;> rfl

theorem outcome_bind (work : Effect α) (next : α → Effect β) (s : State) :
    outcome (work >>= next) s = match outcome work s with
      | (.ok a, t) => outcome (next a) t
      | (.error f, t) => (.error f, t) := by
  change (match outcome work s with | (a, t) => ExceptT.bindCont next a t) = _
  rcases outcome work s with ⟨r, t⟩
  cases r <;> rfl

theorem outcome_map (g : α → β) (work : Effect α) (s : State) :
    outcome (g <$> work) s = ((outcome work s).1.map g, (outcome work s).2) := by
  rw [map_eq_pure_bind, outcome_bind]
  rcases outcome work s with ⟨r, t⟩
  cases r <;> rfl

theorem bind_ok_iff {work : Effect α} {next : α → Effect β} {s u : State} {b : β} :
    outcome (work >>= next) s = (.ok b, u) ↔
      ∃ a t, outcome work s = (.ok a, t) ∧ outcome (next a) t = (.ok b, u) := by
  rw [outcome_bind]
  rcases outcome work s with ⟨r, t⟩
  cases r with
  | error f => simp
  | ok a => simp [and_assoc]

theorem bind_error_iff {work : Effect α} {next : α → Effect β} {s u : State} {f : Failure} :
    outcome (work >>= next) s = (.error f, u) ↔
      outcome work s = (.error f, u) ∨
        ∃ a t, outcome work s = (.ok a, t) ∧ outcome (next a) t = (.error f, u) := by
  rw [outcome_bind]
  rcases outcome work s with ⟨r, t⟩
  cases r with
  | error g => simp
  | ok a => simp [and_assoc]

theorem map_ok_iff {g : α → β} {work : Effect α} {s t : State} {b : β} :
    outcome (g <$> work) s = (.ok b, t) ↔ ∃ a, outcome work s = (.ok a, t) ∧ g a = b := by
  rw [outcome_map]
  rcases outcome work s with ⟨r, u⟩
  cases r with
  | error f => simp [Except.map]
  | ok a => simp [Except.map, and_comm, and_left_comm]

theorem map_error_iff {g : α → β} {work : Effect α} {s t : State} {f : Failure} :
    outcome (g <$> work) s = (.error f, t) ↔ outcome work s = (.error f, t) := by
  rw [outcome_map]
  rcases outcome work s with ⟨r, u⟩
  cases r <;> simp [Except.map]

theorem done_of_isOk {work : Effect Unit} {s : State} (ok : (outcome work s).1.isOk = true) :
    ∃ t, outcome work s = (.ok (), t) := by
  rcases hr : outcome work s with ⟨r, t⟩
  rw [hr] at ok
  cases r with
  | error f => cases ok
  | ok => exact ⟨t, rfl⟩

theorem failed_of_not_isOk {work : Effect α} {s : State}
    (failed : (outcome work s).1.isOk = false) : ∃ f t, outcome work s = (.error f, t) := by
  rcases hr : outcome work s with ⟨r, t⟩
  rw [hr] at failed
  cases r with
  | error f => exact ⟨f, t, rfl⟩
  | ok => cases failed

end RuleService.Effect
