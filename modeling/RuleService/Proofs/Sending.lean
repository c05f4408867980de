import RuleService.Http.Reply
import RuleService.Proofs.Exactness
import RuleService.Proofs.Journal
import RuleService.Proofs.Stages
import RuleService.Snippet.Engine

namespace RuleService

open Effect

namespace Http

theorem Reply.setHeader_status (r : Reply) (name : String) (v : Json) :
    (r.setHeader name v).status = r.status := by
  unfold setHeader
  split <;> rfl

theorem Reply.setHeader_body (r : Reply) (name : String) (v : Json) :
    (r.setHeader name v).body = r.body := by
  unfold setHeader
  split <;> rfl

@[simp] theorem Reply.setHeaders_status (r : Reply) (headers : Fields) :
    (r.setHeaders headers).status = r.status := by
  induction headers generalizing r with
  | nil => rfl
  | cons header headers ih => exact (ih _).trans (r.setHeader_status ..)

@[simp] theorem Reply.setHeaders_body (r : Reply) (headers : Fields) :
    (r.setHeaders headers).body = r.body := by
  induction headers generalizing r with
  | nil => rfl
  | cons header headers ih => exact (ih _).trans (r.setHeader_body ..)

@[simp] theorem Reply.withBody_status (status : Nat) (v : Json) :
    (Reply.withBody status v).status = status := by
  cases v <;> rfl

/-- A redirect is sent as one, whatever else the response says. -/
theorem Reply.ofResponse_redirect {r : Response} {target : String}
    (left : r.redirect = some target) :
    (Reply.ofResponse r).body = "" ∧ (Reply.ofResponse r).status =
      if isRedirection (Reply.statusOf r.status) then Reply.statusOf r.status else 302 := by
  simp [ofResponse, left, redirect]

theorem Reply.ofResponse_direct {r : Response} (left : r.redirect = none) :
    (Reply.ofResponse r).body = (Reply.withBody (Reply.statusOf r.status) r.body).body ∧
      (Reply.ofResponse r).status = Reply.statusOf r.status := by
  simp [ofResponse, left]

/-- The status of a redirect is one of a redirect. -/
theorem Reply.isRedirection_of_redirect {r : Response} {target : String}
    (left : r.redirect = some target) : isRedirection (Reply.ofResponse r).status = true := by
  rw [(ofResponse_redirect left).2]
  split
  · assumption
  · rfl

/-- A text is sent as it is, unless a redirect is left. -/
theorem Reply.body_eq_iff {r : Response} {text : String} (given : r.body = .str text) :
    (Reply.ofResponse r).body = text ↔ r.redirect = none ∨ text = "" := by
  cases left : r.redirect with
  | none => simp [(ofResponse_direct left).1, given, withBody, plain, typed]
  | some target => simp [(ofResponse_redirect left).1, eq_comm]

/-- A status is sent as it is, unless a redirect is left and the status is not one of a redirect. -/
theorem Reply.status_eq_iff {r : Response} (valid : isStatus r.status = true) :
    (Reply.ofResponse r).status = r.status ↔
      r.redirect = none ∨ isRedirection r.status = true := by
  have same : Reply.statusOf r.status = r.status := by simp [statusOf, valid]
  cases left : r.redirect with
  | none => simp [(ofResponse_direct left).2, same]
  | some target =>
    rw [(ofResponse_redirect left).2, same]
    split
    · next redirects => simp [redirects]
    · next other =>
      have away : 302 ≠ r.status := by
        rintro equal
        rw [← equal] at other
        exact other rfl
      simp [away, other]

end Http

theorem Response.setDefaultHeader_redirect (r : Response) (name value : String) :
    (r.setDefaultHeader name value).redirect = r.redirect := by
  unfold setDefaultHeader
  split <;> rfl

namespace Ending

private theorem statusOf_int_eq (n : Int) : statusOf (.int n) =
    match (if (Double.ofInt n).isWhole then (Double.ofInt n).truncate? else none) with
    | some n => if 100 ≤ n ∧ n ≤ 999 then n.toNat else 500
    | none => 500 := rfl

/-- A whole number is a status code if it has three digits. -/
theorem statusOf_int (n : Int) :
    statusOf (.int n) = if 100 ≤ n ∧ n ≤ 999 then n.toNat else 500 := by
  rw [statusOf_int_eq]
  by_cases small : n.natAbs < 2 ^ 53
  · obtain ⟨whole, cut⟩ := Double.ofInt_exact small
    rw [whole, if_pos rfl, cut]
  · have outside : ¬ (100 ≤ n ∧ n ≤ 999) := by omega
    rw [if_neg outside]
    split
    · next w cut =>
      have far : 2 ^ 52 ≤ w.natAbs := by
        split at cut
        · exact Double.ofInt_large (by omega) cut
        · cases cut
      rw [if_neg (by omega)]
    · rfl

theorem isStatus_statusOf (v : Json) : Http.isStatus (statusOf v) = true := by
  have valid (whole : Option Int) : Http.isStatus (match whole with
      | some n => if 100 ≤ n ∧ n ≤ 999 then n.toNat else 500
      | none => 500) = true := by
    split
    · split
      · rw [Http.isStatus, Bool.and_eq_true, decide_eq_true_iff, decide_eq_true_iff]
        omega
      · rfl
    · rfl
  exact valid _

/-- What an expanded rule asks for: the first of four fields that is not null, or nothing. -/
inductive Asked : Json → Ending → Prop
  | file {fields : Fields} {path : Json} (response : field? fields "response" = some path) :
      Asked (.obj fields) (.file path.display)
  | redirect {fields : Fields} {target : Json} (response : field? fields "response" = none)
      (redirect : field? fields "redirect" = some target) :
      Asked (.obj fields) (.redirect (if target.display.isEmpty then "/" else target.display))
  | status {fields : Fields} {code : Json} (response : field? fields "response" = none)
      (redirect : field? fields "redirect" = none)
      (error : field? fields "errorResponse" = some code) :
      Asked (.obj fields) (.status (statusOf code))
  | text {fields : Fields} {body : Json} (response : field? fields "response" = none)
      (redirect : field? fields "redirect" = none)
      (error : field? fields "errorResponse" = none)
      (text : field? fields "responseText" = some body) : Asked (.obj fields) (.text body.display)
  | missing {fields : Fields} (response : field? fields "response" = none)
      (redirect : field? fields "redirect" = none)
      (error : field? fields "errorResponse" = none)
      (text : field? fields "responseText" = none) : Asked (.obj fields) .missing
  | nothing {v : Json} (other : ∀ fields, v ≠ .obj fields) : Asked v .missing

theorem asked_ofFields (fields : Fields) : Asked (.obj fields) (ofFields fields) := by
  unfold ofFields
  cases response : field? fields "response" with
  | some path => exact .file response
  | none =>
  cases redirect : field? fields "redirect" with
  | some target => exact .redirect response redirect
  | none =>
  cases error : field? fields "errorResponse" with
  | some code => exact .status response redirect error
  | none =>
  cases text : field? fields "responseText" with
  | some body => exact .text response redirect error text
  | none => exact .missing response redirect error text

theorem asked_ofJson (v : Json) : Asked v (Recipe.ofJson v).ending := by
  cases v with
  | obj fields => exact asked_ofFields fields
  | _ => exact .nothing nofun

variable {h : Host} {ctx : Context} {path : String} {s t : State}

/-- The text that is sent for a file, and the state that the snippets in it leave. -/
inductive Sent (h : Host) (ctx : Context) (path : String) (s : State) : String → State → Prop
  | page {content : String} {v : Json} {t : State} (read : h.file path = .ok content)
      (kind : isPage path)
      (expanded : (expand h.engine ctx content).outcome (s.record (.read path)) = (.ok v, t)) :
      Sent h ctx path s v.display t
  | document {content : String} {v w : Json} {t : State} (read : h.file path = .ok content)
      (kind : isDocument path) (parsed : Json.parse content = .ok v)
      (expanded : (interpolateDocument h ctx v).outcome (s.record (.read path)) = (.ok w, t)) :
      Sent h ctx path s w.render t
  | other {content : String} (read : h.file path = .ok content) (notPage : ¬ isPage path)
      (notDocument : ¬ isDocument path) : Sent h ctx path s content (s.record (.read path))

theorem sent_of_fileText {content text : String} (read : h.file path = .ok content)
    (told : (fileText h ctx path (foldName (Path.extension path)) content).outcome
      (s.record (.read path)) = (.ok text, t)) : Sent h ctx path s text t := by
  by_cases page : isPage path
  · rw [fileText_page path content page] at told
    obtain ⟨v, expanded, rfl⟩ := map_ok_iff.mp told
    exact .page read page expanded
  by_cases document : isDocument path
  · rw [fileText_document path content document] at told
    cases parsed : Json.parse content with
    | ok v =>
      rw [parsed] at told
      obtain ⟨w, expanded, rfl⟩ := map_ok_iff.mp told
      exact .document read document parsed expanded
    | error why => simp [parsed] at told
  · rw [fileText_other path content page document] at told
    obtain ⟨rfl, rfl⟩ : content = text ∧ _ = t := by simpa using told
    exact .other read page document

/-- A file is sent with one text, and its snippets leave one state. -/
theorem Sent.unique {text text' : String} {t t' : State} (one : Sent h ctx path s text t)
    (other : Sent h ctx path s text' t') : text = text' ∧ t = t' := by
  have told {text : String} {t : State} (sent : Sent h ctx path s text t) :
      ∃ content, h.file path = .ok content ∧
        (fileText h ctx path (foldName (Path.extension path)) content).outcome
          (s.record (.read path)) = (.ok text, t) := by
    cases sent with
    | page read kind expanded =>
      refine ⟨_, read, ?_⟩
      rw [fileText_page path _ kind, map_ok_iff]
      exact ⟨_, expanded, rfl⟩
    | document read kind parsed expanded =>
      refine ⟨_, read, ?_⟩
      rw [fileText_document path _ kind, parsed, map_ok_iff]
      exact ⟨_, expanded, rfl⟩
    | other read notPage notDocument =>
      refine ⟨_, read, ?_⟩
      rw [fileText_other path _ notPage notDocument]
      rfl
  obtain ⟨content, read, first⟩ := told one
  obtain ⟨content', read', second⟩ := told other
  obtain rfl : content = content' := by simpa [read] using read'
  simpa using first.symm.trans second

/-- A file that is sent becomes the body of the response, and its type the content type unless there is
one. -/
theorem replied_of_sendFile (done : (sendFile h ctx path).outcome s = (.ok (), t)) :
    ∃ text u, Sent h ctx path s text u ∧ t = { u with
      response := { u.response.setDefaultHeader contentTypeName
        (ContentType.ofExtension (foldName (Path.extension path))) with body := .str text } } := by
  rw [sendFile, readFile_bind_ok_iff] at done
  obtain ⟨content, read, done⟩ := done
  obtain ⟨text, u, told, replied⟩ := bind_ok_iff.mp done
  exact ⟨text, u, sent_of_fileText read told, (congrArg Prod.snd replied).symm⟩

theorem sent_of_sendFile (done : (sendFile h ctx path).outcome s = (.ok (), t)) :
    ∃ text u, Sent h ctx path s text u ∧ t.response.body = .str text ∧
      t.response.redirect = u.response.redirect := by
  obtain ⟨text, u, sent, rfl⟩ := replied_of_sendFile done
  exact ⟨text, u, sent, rfl, Response.setDefaultHeader_redirect ..⟩

/-- What an ending promises of the reply. -/
def Promised (h : Host) (ctx : Context) (s : State) (reply : Http.Reply) : Ending → Prop
  | file path => ∃ text t, Sent h ctx path s text t ∧ reply.body = text
  | redirect _ => Http.isRedirection reply.status = true ∧ reply.body = ""
  | status code => reply.status = code
  | text body => reply.body = body
  | missing => reply.status = 500

/-- That no redirect is left to take precedence over an ending, or that it makes no difference. -/
def Unhindered (h : Host) (ctx : Context) (s : State) : Ending → Prop
  | file path => ∃ text t, Sent h ctx path s text t ∧ (t.response.redirect = none ∨ text = "")
  | redirect _ => True
  | status code => s.response.redirect = none ∨ Http.isRedirection code = true
  | text body => s.response.redirect = none ∨ body = ""
  | missing => s.response.redirect = none

/-- The promise of an ending is kept just if no redirect hinders it. -/
theorem promised_iff {ending : Ending}
    (valid : ∀ code, ending = .status code → Http.isStatus code = true)
    (done : (ending.perform h ctx).outcome s = (.ok (), t)) :
    Promised h ctx s (Http.Reply.ofResponse t.response) ending ↔ Unhindered h ctx s ending := by
  cases ending with
  | file path =>
    obtain ⟨text, u, sent, body, redirect⟩ := sent_of_sendFile done
    have decided := Http.Reply.body_eq_iff body
    rw [redirect] at decided
    constructor
    · rintro ⟨text', u', sent', kept⟩
      obtain ⟨rfl, rfl⟩ := sent.unique sent'
      exact ⟨text, u, sent, decided.mp kept⟩
    · rintro ⟨text', u', sent', unhindered⟩
      obtain ⟨rfl, rfl⟩ := sent.unique sent'
      exact ⟨text, u, sent, decided.mpr unhindered⟩
  | redirect target =>
    obtain rfl : _ = t := congrArg Prod.snd done
    refine iff_of_true ⟨?_, ?_⟩ trivial
    · exact Http.Reply.isRedirection_of_redirect rfl
    · exact (Http.Reply.ofResponse_redirect rfl).1
  | status code =>
    obtain rfl : _ = t := congrArg Prod.snd done
    exact Http.Reply.status_eq_iff (valid code rfl)
  | text body =>
    obtain rfl : _ = t := congrArg Prod.snd done
    have decided := Http.Reply.body_eq_iff (r := { s.response.setDefaultHeader contentTypeName
      ContentType.html with body := .str body }) rfl
    rwa [Response.setDefaultHeader_redirect] at decided
  | missing =>
    obtain rfl : _ = t := congrArg Prod.snd done
    have decided := Http.Reply.status_eq_iff (r := { s.response with status := 500, body := .null })
      rfl
    have never : Http.isRedirection 500 = false := rfl
    simp only [never, Bool.false_eq_true, or_false] at decided
    exact decided

end Ending

theorem dispatchRule_of_ok {h : Host} {ctx : Context} {rule : Rule} {s t : State}
    (done : (rule.run h ctx).outcome s = (.ok (), t)) : dispatchRule h ctx rule s = t := by
  have ran : (rule.run h ctx).run s = (.ok (), t) := done
  rw [dispatchRule, answered, ran]

/-- What the ending of a rule without a last script promises is sent just if no redirect is left to
hinder it: by the first script, by the template, or for a file by the snippets in it. -/
theorem dispatchRule_sends_iff {h : Host} {ctx : Context} {rule : Rule} {s t : State}
    (last : rule.after = none) (done : (rule.run h ctx).outcome s = (.ok (), t)) :
    (∃ v u, Drafted h ctx rule s v u ∧ Ending.Asked v (Recipe.ofJson v).ending ∧
      (Ending.Promised h ctx u (Http.Reply.ofResponse (dispatchRule h ctx rule s).response)
          (Recipe.ofJson v).ending ↔
        Ending.Unhindered h ctx u (Recipe.ofJson v).ending)) ∧
    ∀ n, Ending.statusOf (.int n) = if 100 ≤ n ∧ n ≤ 999 then n.toNat else 500 := by
  obtain ⟨v, u, w, drafted, ended, finished⟩ := Rule.run_ok_iff.mp done
  obtain rfl : w = t := by simpa [last, Rule.runScript] using finished
  refine ⟨⟨v, u, drafted, Ending.asked_ofJson v, ?_⟩, Ending.statusOf_int⟩
  rw [dispatchRule_of_ok done]
  refine Ending.promised_iff (fun code asks => ?_) ended
  have asked := Ending.asked_ofJson v
  rw [asks] at asked
  cases asked with
  | status => exact Ending.isStatus_statusOf _

/-- A host that has no files. -/
def bareHost : Host where
  engine := Snippet.engine Snippet.ownModules (fun _ => none) 0
  file path := .error (.fileNotFound path)

/-- A rule that asks for a status. -/
def teapot : Rule where
  definition := [("errorResponse", .int 418)]
  condition := none
  before := none
  after := none

theorem dispatchRule_sends_iff_teapot : ∃ t, teapot.after = none ∧
    (teapot.run bareHost {}).outcome {} = (.ok (), t) ∧
    (Http.Reply.ofResponse (dispatchRule bareHost {} teapot {}).response).status = 418 ∧
    ∃ v u, Drafted bareHost {} teapot {} v u ∧ Ending.Asked v (Recipe.ofJson v).ending ∧
      (Ending.Promised bareHost {} u
          (Http.Reply.ofResponse (dispatchRule bareHost {} teapot {}).response)
          (Recipe.ofJson v).ending ↔
        Ending.Unhindered bareHost {} u (Recipe.ofJson v).ending) := by
  have ok : ((teapot.run bareHost {}).outcome {}).1.isOk = true := by decide +kernel
  obtain ⟨t, done⟩ := done_of_isOk ok
  exact ⟨t, rfl, done, by decide +kernel, (dispatchRule_sends_iff rfl done).1⟩

/-- A rule that asks for a status after its first script has left a redirect. -/
def elsewhere : Rule where
  definition := [("errorResponse", .int 418)]
  condition := none
  before := some (.statement "res.redirect = \x22/elsewhere\x22")
  after := none

/-- A status that is asked for is not always sent. -/
theorem dispatchRule_breaks_promise :
    ¬ ∀ (h : Host) (ctx : Context) (rule : Rule) (s t : State), rule.after = none →
      (rule.run h ctx).outcome s = (.ok (), t) → ∀ v u, Drafted h ctx rule s v u →
        Ending.Promised h ctx u (Http.Reply.ofResponse (dispatchRule h ctx rule s).response)
          (Recipe.ofJson v).ending := by
  intro promised
  have ok : ((elsewhere.run bareHost {}).outcome {}).1.isOk = true := by decide +kernel
  obtain ⟨t, done⟩ := done_of_isOk ok
  obtain ⟨v, u, -, drafted, -, -⟩ := Rule.run_ok_iff.mp done
  have kept := promised bareHost {} elsewhere {} t rfl done v u drafted
  have plain (h : Host) : interpolateDocument h {} elsewhere.template =
      pure (.obj [("errorResponse", .int 418)]) := by
    simp [Rule.template, elsewhere, Rule.codeFields, interpolateDocument, interpolate,
      Template.ofJson, Template.firstCommand?, Template.isCommandName, Template.ofFields,
      Template.expand, Template.expandFields]
  obtain rfl : .obj [("errorResponse", .int 418)] = v := by
    cases drafted with
    | intro prepared expanded =>
    rw [plain] at expanded
    simpa using congrArg Prod.fst expanded
  have asked : (Recipe.ofJson (.obj [("errorResponse", .int 418)])).ending = .status 418 := by
    decide +kernel
  have sent : (Http.Reply.ofResponse (dispatchRule bareHost {} elsewhere {}).response).status =
      302 := by
    decide +kernel
  rw [asked] at kept
  have impossible : 302 = 418 := sent.symm.trans kept
  omega

end RuleService
