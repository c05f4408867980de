import RuleService.Proofs.Outcome
import RuleService.Template.Expansion

namespace RuleService

open Effect

/-- The code of a snippet that ran. -/
def Event.code? : Event → Option String
  | .evaluated code _ | .executed code _ => some code
  | _ => none

/-- The snippets that ran so far, in order. -/
def State.snippets (s : State) : List String := s.journal.reverse.filterMap Event.code?

theorem State.snippets_record (s : State) (e : Event) :
    (s.record e).snippets = s.snippets ++ e.code?.toList := by
  cases hc : e.code? <;> simp [State.snippets, State.record, hc]

theorem commit_journal (code : String) (s : State) (binding : String → Option Held) :
    (commit code s binding).1.journal = s.journal := by
  unfold commit
  split
  · rfl
  · split <;> rfl

/-- What a run leaves is committed over what it printed. -/
theorem settle_journal (code : String) (s : State) (finish : Finish) :
    (settle code s finish).1.journal = (finish.printed.map Event.printed).reverse ++ s.journal := by
  have kept := commit_journal code
    { s with journal := (finish.printed.map Event.printed).reverse ++ s.journal } finish.binding
  simp only [settle]
  split <;> next committed => simpa only [committed] using kept

theorem outcome_runSnippet (way : String → Bindings → Finish) (ctx : Context) (code : String)
    (s : State) :
    (runSnippet way ctx code).outcome s =
      ((settle code s (way code (bindingsFor ctx s))).2,
        (settle code s (way code (bindingsFor ctx s))).1) := rfl

theorem snippets_runSnippet (way : String → Bindings → Finish) (ctx : Context) (code : String)
    (s : State) : ((runSnippet way ctx code).outcome s).2.snippets = s.snippets := by
  have texts (printed : List String) :
      (printed.map Event.printed).filterMap Event.code? = [] := by
    simp [List.filterMap_map, Event.code?, Function.comp_def]
  rw [outcome_runSnippet]
  simp only [State.snippets, settle_journal, List.reverse_append, List.reverse_reverse,
    List.filterMap_append, texts, List.append_nil]

theorem snippets_evaluate (engine : Engine) (ctx : Context) (code : String) (s : State) :
    ((evaluate engine ctx code).outcome s).2.snippets = s.snippets ++ [code] := by
  let noted := s.record (.evaluated code ctx.locals)
  have ran := snippets_runSnippet engine.expression ctx code noted
  rw [State.snippets_record] at ran
  rw [evaluate, outcome_bind, outcome_record]
  simp only [outcome_bind]
  rcases hr : (runSnippet engine.expression ctx code).outcome noted with ⟨r, t⟩
  rw [hr] at ran
  match r with
  | .error f => exact ran
  | .ok none => exact ran
  | .ok (some v) => exact ran

theorem snippets_execute (engine : Engine) (ctx : Context) (code : String) (s : State) :
    ((execute engine ctx code).outcome s).2.snippets = s.snippets ++ [code] := by
  let noted := s.record (.executed code ctx.locals)
  have ran := snippets_runSnippet engine.script ctx code noted
  rw [State.snippets_record] at ran
  rw [execute, outcome_bind, outcome_record]
  simp only [outcome_bind]
  rcases hr : (runSnippet engine.script ctx code).outcome noted with ⟨r, t⟩
  rw [hr] at ran
  cases r with
  | error f => exact ran
  | ok held => exact ran

theorem committedResponse_error {code : String} {binding : String → Option Held}
    {response : Response} {names : List String} {f : Failure}
    (failed : committedResponse code binding response names = .error f) :
    ∃ message, f = .evaluation code message := by
  induction names with
  | nil => cases failed
  | cons name names ih =>
    unfold committedResponse at failed
    split at failed
    · exact ih failed
    · split at failed
      · cases failed
        exact ⟨_, rfl⟩
      · split at failed
        · exact ih failed
        · cases failed

theorem commit_error {code : String} {s : State} {binding : String → Option Held} {f : Failure}
    (failed : (commit code s binding).2 = .error f) : ∃ message, f = .evaluation code message := by
  unfold commit at failed
  split at failed
  · next dropped =>
    obtain rfl : _ = f := by simpa using failed
    unfold committedData at dropped
    split at dropped <;> cases dropped
    exact ⟨_, rfl⟩
  · split at failed
    · next refused =>
      obtain rfl : _ = f := by simpa using failed
      exact committedResponse_error refused
    · cases failed

theorem settle_error {code : String} {s : State} {finish : Finish} {f : Failure}
    (failed : (settle code s finish).2 = .error f) : ∃ message, f = .evaluation code message := by
  simp only [settle] at failed
  split at failed
  · next refused =>
    obtain rfl : _ = f := by simpa using failed
    exact commit_error (congrArg Prod.snd refused)
  · cases ho : finish.outcome with
    | ok held =>
      rw [ho] at failed
      cases failed
    | error message =>
      rw [ho] at failed
      exact ⟨message, (Except.error.inj failed).symm⟩

theorem evaluate_error {engine : Engine} {ctx : Context} {code : String} {s t : State} {f : Failure}
    (failed : (evaluate engine ctx code).outcome s = (.error f, t)) :
    ∃ message, f = .evaluation code message := by
  simp only [evaluate, bind_error_iff, outcome_record, outcome_runSnippet] at failed
  obtain impossible | ⟨_, _, -, ran | ⟨held, u, -, told⟩⟩ := failed
  · simp at impossible
  · exact settle_error (congrArg Prod.fst ran)
  · cases held with
    | none =>
      obtain ⟨rfl, -⟩ : _ = f ∧ _ := by simpa using told
      exact ⟨_, rfl⟩
    | some v => simp at told

theorem execute_error {engine : Engine} {ctx : Context} {code : String} {s t : State} {f : Failure}
    (failed : (execute engine ctx code).outcome s = (.error f, t)) :
    ∃ message, f = .evaluation code message := by
  simp only [execute, bind_error_iff, outcome_record, outcome_runSnippet] at failed
  obtain impossible | ⟨_, _, -, ran | ⟨held, u, -, told⟩⟩ := failed
  · simp at impossible
  · exact settle_error (congrArg Prod.fst ran)
  · simp at told

theorem outcome_readFile (h : Host) (path : String) (s : State) :
    (h.readFile path).outcome s = (h.file path, s.record (.read path)) := by
  simp [Host.readFile, outcome_bind]

theorem readFile_bind_ok_iff {α : Type} {h : Host} {path : String} {next : String → Effect α}
    {s t : State} {a : α} :
    (h.readFile path >>= next).outcome s = (.ok a, t) ↔
      ∃ content, h.file path = .ok content ∧
        (next content).outcome (s.record (.read path)) = (.ok a, t) := by
  rw [outcome_bind, outcome_readFile]
  cases h.file path <;> simp

theorem readFile_bind_error_iff {α : Type} {h : Host} {path : String}
    {next : String → Effect α} {s t : State} {f : Failure} :
    (h.readFile path >>= next).outcome s = (.error f, t) ↔
      (h.file path = .error f ∧ s.record (.read path) = t) ∨
        ∃ content, h.file path = .ok content ∧
          (next content).outcome (s.record (.read path)) = (.error f, t) := by
  rw [outcome_bind, outcome_readFile]
  cases h.file path <;> simp

end RuleService
