import RuleService.Http.Reply
import RuleService.Proofs.Provenance

namespace RuleService

open Effect

/-- How a file fails to be sent: it is not read, it is no document though its name says so, or its
expansion fails. -/
inductive Unsent (h : Host) (ctx : Context) (path : String) (s : State) : Failure → State → Prop
  | unread {f : Failure} (failed : h.file path = .error f) :
      Unsent h ctx path s f (s.record (.read path))
  | unparsed {content why : String} (read : h.file path = .ok content)
      (kind : Ending.isDocument path) (failed : Json.parse content = .error why) :
      Unsent h ctx path s (.unreadable path ("invalid JSON: " ++ why)) (s.record (.read path))
  | page {content : String} {f : Failure} {t : State} (read : h.file path = .ok content)
      (kind : Ending.isPage path)
      (failed : (expand h.engine ctx content).outcome (s.record (.read path)) = (.error f, t)) :
      Unsent h ctx path s f t
  | document {content : String} {v : Json} {f : Failure} {t : State}
      (read : h.file path = .ok content) (kind : Ending.isDocument path)
      (parsed : Json.parse content = .ok v)
      (failed : (interpolateDocument h ctx v).outcome (s.record (.read path)) = (.error f, t)) :
      Unsent h ctx path s f t

/-- How an answer fails, and in which state. The last script runs only if the ending was made. -/
inductive Breakdown (h : Host) (ctx : Context) (rules : List Rule) (s : State) :
    Failure → State → Prop
  | condition {f : Failure} {t : State} (stuck : Stuck h ctx rules s f t) :
      Breakdown h ctx rules s f t
  | unresolved {t : State} (skipped : Skipped h ctx rules s t) :
      Breakdown h ctx rules s (.unresolved ctx.request.method ctx.request.path) t
  | before {rule : Rule} {f : Failure} {t u : State} (chosen : Chosen h ctx rules s rule t)
      (failed : (Rule.runScript h ctx rule.before).outcome t = (.error f, u)) :
      Breakdown h ctx rules s f u
  | template {rule : Rule} {f : Failure} {t u v : State} (chosen : Chosen h ctx rules s rule t)
      (prepared : (Rule.runScript h ctx rule.before).outcome t = (.ok (), u))
      (failed : (interpolateDocument h ctx rule.template).outcome u = (.error f, v)) :
      Breakdown h ctx rules s f v
  | file {rule : Rule} {made : Json} {path : String} {f : Failure} {t u v : State}
      (chosen : Chosen h ctx rules s rule t) (drafted : Drafted h ctx rule t made u)
      (sent : (Recipe.ofJson made).ending = .file path) (failed : Unsent h ctx path u f v) :
      Breakdown h ctx rules s f v
  | after {rule : Rule} {made : Json} {f : Failure} {t u v w : State}
      (chosen : Chosen h ctx rules s rule t) (drafted : Drafted h ctx rule t made u)
      (ended : ((Recipe.ofJson made).ending.perform h ctx).outcome u = (.ok (), v))
      (failed : (Rule.runScript h ctx rule.after).outcome v = (.error f, w)) :
      Breakdown h ctx rules s f w

/-- The status that a failure is answered with. -/
def Failure.status : Failure → Nat
  | fileNotFound _ | unresolved .. => 404
  | _ => 500

variable {h : Host} {ctx : Context} {rules : List Rule} {rule : Rule} {s t : State} {f : Failure}

namespace Ending

theorem sendFile_error_iff {path : String} :
    (sendFile h ctx path).outcome s = (.error f, t) ↔ Unsent h ctx path s f t := by
  rw [sendFile, readFile_bind_error_iff]
  simp only [bind_error_iff, outcome_reply]
  constructor
  · rintro (⟨failed, rfl⟩ | ⟨content, read, failed | ⟨_, _, -, impossible⟩⟩)
    · exact .unread failed
    · by_cases page : isPage path
      · rw [fileText_page path content page, map_error_iff] at failed
        exact .page read page failed
      by_cases document : isDocument path
      · rw [fileText_document path content document] at failed
        cases parsed : Json.parse content with
        | ok v =>
          rw [parsed, map_error_iff] at failed
          exact .document read document parsed failed
        | error why =>
          obtain ⟨rfl, rfl⟩ : _ = f ∧ _ = t := by simpa [parsed] using failed
          exact .unparsed read document parsed
      · simp [fileText_other path content page document] at failed
    · simp at impossible
  · intro unsent
    cases unsent with
    | unread failed => exact .inl ⟨failed, rfl⟩
    | unparsed read kind failed =>
      refine .inr ⟨_, read, .inl ?_⟩
      rw [fileText_document path _ kind, failed]
      rfl
    | page read kind failed =>
      refine .inr ⟨_, read, .inl ?_⟩
      rw [fileText_page path _ kind, map_error_iff]
      exact failed
    | document read kind parsed failed =>
      refine .inr ⟨_, read, .inl ?_⟩
      rw [fileText_document path _ kind, parsed, map_error_iff]
      exact failed

theorem perform_error_iff {ending : Ending} :
    (ending.perform h ctx).outcome s = (.error f, t) ↔
      ∃ path, ending = .file path ∧ Unsent h ctx path s f t := by
  cases ending with
  | file path => simp [perform, sendFile_error_iff]
  | _ => simp [perform]

end Ending

namespace Rule

theorem run_error_iff :
    (rule.run h ctx).outcome s = (.error f, t) ↔
      (runScript h ctx rule.before).outcome s = (.error f, t) ∨
      (∃ u, (runScript h ctx rule.before).outcome s = (.ok (), u) ∧
        (interpolateDocument h ctx rule.template).outcome u = (.error f, t)) ∨
      ∃ made u, Drafted h ctx rule s made u ∧
        (((Recipe.ofJson made).ending.perform h ctx).outcome u = (.error f, t) ∨
          ∃ v, ((Recipe.ofJson made).ending.perform h ctx).outcome u = (.ok (), v) ∧
            (runScript h ctx rule.after).outcome v = (.error f, t)) := by
  simp only [run, bind_error_iff, outcome_reply]
  refine or_congr_right ?_
  constructor
  · rintro ⟨_, u, prepared, failed | ⟨v, w, expanded, impossible | ⟨_, x, headers, failed⟩⟩⟩
    · exact .inl ⟨u, prepared, failed⟩
    · simp at impossible
    · cases headers
      refine .inr ⟨_, _, .intro prepared expanded, ?_⟩
      obtain failed | ⟨_, y, ended, failed⟩ := failed
      · exact .inl failed
      · exact .inr ⟨y, ended, failed⟩
  · rintro (⟨u, prepared, failed⟩ | ⟨made, u, drafted, failed⟩)
    · exact ⟨(), u, prepared, .inl failed⟩
    · cases drafted with
      | intro prepared expanded =>
      refine ⟨(), _, prepared, .inr ⟨_, _, expanded, .inr ⟨(), _, rfl, ?_⟩⟩⟩
      obtain failed | ⟨y, ended, failed⟩ := failed
      · exact .inl failed
      · exact .inr ⟨(), y, ended, failed⟩

/-- An answer fails at one of its stages. -/
theorem breakdown_iff :
    (runFirst h ctx rules).outcome s = (.error f, t) ↔ Breakdown h ctx rules s f t := by
  rw [runFirst_error_iff]
  constructor
  · rintro (stuck | ⟨skipped, rfl⟩ | ⟨rule, u, chosen, failed⟩)
    · exact .condition stuck
    · exact .unresolved skipped
    · obtain failed | ⟨v, prepared, failed⟩ | ⟨made, v, drafted, failed | ⟨w, ended, failed⟩⟩ :=
        run_error_iff.mp failed
      · exact .before chosen failed
      · exact .template chosen prepared failed
      · obtain ⟨path, sent, failed⟩ := Ending.perform_error_iff.mp failed
        exact .file chosen drafted sent failed
      · exact .after chosen drafted ended failed
  · intro broken
    cases broken with
    | condition stuck => exact .inl stuck
    | unresolved skipped => exact .inr (.inl ⟨skipped, rfl⟩)
    | before chosen failed =>
      exact .inr (.inr ⟨_, _, chosen, run_error_iff.mpr (.inl failed)⟩)
    | template chosen prepared failed =>
      exact .inr (.inr ⟨_, _, chosen, run_error_iff.mpr (.inr (.inl ⟨_, prepared, failed⟩))⟩)
    | file chosen drafted sent failed =>
      have unsent := Ending.perform_error_iff.mpr ⟨_, sent, failed⟩
      exact .inr (.inr ⟨_, _, chosen, run_error_iff.mpr (.inr (.inr ⟨_, _, drafted, .inl unsent⟩))⟩)
    | after chosen drafted ended failed =>
      refine .inr (.inr ⟨_, _, chosen, run_error_iff.mpr (.inr (.inr ⟨_, _, drafted, ?_⟩))⟩)
      exact .inr ⟨_, ended, failed⟩

end Rule

/-- A rule without its last script. -/
def Rule.untilEnding (rule : Rule) : Rule := { rule with after := none }

theorem Skipped.untilEnding (skipped : Skipped h ctx rules s t) :
    Skipped h ctx (rules.map Rule.untilEnding) s t := by
  induction skipped with
  | nil s => exact .nil s
  | cons no rest ih => exact .cons no ih

theorem Stuck.untilEnding (stuck : Stuck h ctx rules s f t) :
    Stuck h ctx (rules.map Rule.untilEnding) s f t := by
  obtain ⟨rfl, skipped, failed⟩ := stuck
  exact ⟨List.map_append, skipped.untilEnding, failed⟩

theorem Chosen.untilEnding (chosen : Chosen h ctx rules s rule t) :
    Chosen h ctx (rules.map Rule.untilEnding) s rule.untilEnding t := by
  obtain ⟨rfl, skipped, yes⟩ := chosen
  exact ⟨List.map_append, skipped.untilEnding, yes⟩

theorem Drafted.untilEnding {made : Json} (drafted : Drafted h ctx rule s made t) :
    Drafted h ctx rule.untilEnding s made t := by
  cases drafted with
  | intro prepared expanded => exact .intro prepared expanded

/-- A failure of a last script, after the ending was made. -/
def FailedAfterEnding (h : Host) (ctx : Context) (rules : List Rule) (s : State) (f : Failure)
    (t : State) : Prop :=
  ∃ rule made u v w, Chosen h ctx rules s rule u ∧ Drafted h ctx rule u made v ∧
    ((Recipe.ofJson made).ending.perform h ctx).outcome v = (.ok (), w) ∧
    (Rule.runScript h ctx rule.after).outcome w = (.error f, t)

/-- An answer that fails does so after its ending is made, or as it would if no rule had a last
script. -/
theorem Breakdown.after_or_untilEnding (broken : Breakdown h ctx rules s f t) :
    FailedAfterEnding h ctx rules s f t ∨
      Breakdown h ctx (rules.map Rule.untilEnding) s f t := by
  cases broken with
  | condition stuck => exact .inr (.condition stuck.untilEnding)
  | unresolved skipped => exact .inr (.unresolved skipped.untilEnding)
  | before chosen failed => exact .inr (.before chosen.untilEnding failed)
  | template chosen prepared failed => exact .inr (.template chosen.untilEnding prepared failed)
  | file chosen drafted sent failed =>
    exact .inr (.file chosen.untilEnding drafted.untilEnding sent failed)
  | after chosen drafted ended failed =>
    exact .inl ⟨_, _, _, _, _, chosen, drafted, ended, failed⟩

theorem Failure.status_eq (f : Failure) : (if f.isNotFound then 404 else 500) = f.status := by
  cases f <;> rfl

theorem Breakdown.dispatch_eq (broken : Breakdown h ctx rules s f t) :
    dispatch h ctx rules s = { t with
      response := { t.response with status := f.status, body := .null, redirect := none } } := by
  have failed : (Rule.runFirst h ctx rules).run s = (.error f, t) := Rule.breakdown_iff.mpr broken
  simp only [dispatch, answered, failed, Response.failed, Failure.status_eq]

/-- A failure is sent as a bare status, whatever it is. -/
theorem Breakdown.reply_eq (broken : Breakdown h ctx rules s f t) :
    Http.Reply.ofResponse (dispatch h ctx rules s).response =
      (Http.Reply.withBody f.status .null).setHeaders t.response.headers := by
  rw [broken.dispatch_eq]
  cases f <;> rfl

/-- The acts of an answer that fails. The last of them is the one that fails, and a file is said to
be missing only if it was to be read. -/
def FailedLast (h : Host) (ctx : Context) (rules : List Rule) (s : State) (f : Failure)
    (t : State) : Prop :=
  ∃ acts last, Ran h ctx.request (acts ++ [last]) s (some f) t ∧ last.Causes h f ∧
    t.snippets = s.snippets ++ codes (acts ++ [last]) ∧
    (∀ act ∈ acts ++ [last], act.Serves (RequestSnippet h ctx rules s)) ∧
    ∀ missing, f = .fileNotFound missing → ∃ path, last = .read path

theorem Breakdown.failedLast (broken : Breakdown h ctx rules s f t)
    (stock : h.commands = Commands.builtIn) : FailedLast h ctx rules s f t := by
  obtain ⟨acts, ran, allowed, -⟩ := Traced.runFirst stock ctx rules s
  rw [Rule.breakdown_iff.mpr broken] at ran
  obtain ⟨before, last, rfl, causes⟩ := ran.cause
  refine ⟨before, last, ran, causes, ran.snippets, allowed, ?_⟩
  rintro missing rfl
  cases last with
  | evaluate code | execute code =>
    obtain ⟨message, impossible⟩ := causes
    cases impossible
  | read path => exact ⟨path, rfl⟩
  | reply change => exact causes.elim
  | refuse why =>
    obtain rfl : why = _ := causes
    have other : ∀ path, Failure.fileNotFound missing ≠ .fileNotFound path :=
      allowed (.refuse (.fileNotFound missing)) (by simp)
    exact (other missing rfl).elim

/-- Failure is uniform. An answer that fails at whatever stage leaves the state of its last act,
which is the one that failed, with a bare response: of the failure only the status is kept, and it
is sent with the headers that were there. -/
theorem dispatch_failure (h : Host) (ctx : Context) (rules : List Rule) (s : State) :
    (∀ f t, (Rule.runFirst h ctx rules).outcome s = (.error f, t) ↔ Breakdown h ctx rules s f t) ∧
    ∀ f t, Breakdown h ctx rules s f t →
      (dispatch h ctx rules s = { t with
        response := { t.response with status := f.status, body := .null, redirect := none } }) ∧
      (h.commands = Commands.builtIn → FailedLast h ctx rules s f t) ∧
      (FailedAfterEnding h ctx rules s f t ∨
        Breakdown h ctx (rules.map Rule.untilEnding) s f t) ∧
      Http.Reply.ofResponse (dispatch h ctx rules s).response =
        (Http.Reply.withBody f.status .null).setHeaders t.response.headers ∧
      ∀ h' ctx' rules' s' f' t', Breakdown h' ctx' rules' s' f' t' → f'.status = f.status →
        t'.response.headers = t.response.headers →
        Http.Reply.ofResponse (dispatch h' ctx' rules' s').response =
          Http.Reply.ofResponse (dispatch h ctx rules s).response := by
  refine ⟨fun f t => Rule.breakdown_iff, fun f t broken => ?_⟩
  refine ⟨broken.dispatch_eq, broken.failedLast, broken.after_or_untilEnding, broken.reply_eq, ?_⟩
  intro h' ctx' rules' s' f' t' broken' status headers
  rw [broken.reply_eq, broken'.reply_eq, status, headers]

/-- A rule that sends a file which is not there. -/
def absent : Rule where
  definition := [("response", .str "absent.html")]
  condition := none
  before := none
  after := none

theorem dispatch_failure_absent :
    echoing.commands = Commands.builtIn ∧ (dispatch echoing {} [absent] {}).response.status = 404 ∧
    ∃ f t, Breakdown echoing {} [absent] {} f t ∧ FailedLast echoing {} [absent] {} f t ∧
      Http.Reply.ofResponse (dispatch echoing {} [absent] {}).response =
        (Http.Reply.withBody f.status .null).setHeaders t.response.headers := by
  have no : ((Rule.runFirst echoing {} [absent]).outcome {}).1.isOk = false := by decide +kernel
  obtain ⟨f, t, failed⟩ := failed_of_not_isOk no
  have uniform := dispatch_failure echoing {} [absent] {}
  have broken := (uniform.1 f t).mp failed
  obtain ⟨-, last, -, sent, -⟩ := uniform.2 f t broken
  exact ⟨rfl, by decide +kernel, f, t, broken, last rfl, sent⟩

end RuleService
