import RuleService.Proofs.Journal

namespace RuleService

/-- Whether two engines run a snippet alike. -/
def Engine.AgreeOn (one other : Engine) (code : String) : Prop :=
  one.expression code = other.expression code ∧ one.script code = other.script code

/-- One thing that is done. -/
inductive Act where
  | evaluate (code : String) (locals : Fields)
  | execute (code : String) (locals : Fields)
  | read (path : String)
  /-- A rule, and no snippet, changes the response. -/
  | reply (change : Response → Response)
  /-- Nothing can be done: a command or a document is malformed, or no rule applies. -/
  | refuse (why : Failure)

namespace Act

/-- The code of an act that runs a snippet. -/
def code? : Act → Option String
  | evaluate code _ | execute code _ => some code
  | _ => none

def perform (h : Host) (request : Request) : Act → Effect Unit
  | evaluate code locals => (fun _ => ()) <$> RuleService.evaluate h.engine { request, locals } code
  | execute code locals => RuleService.execute h.engine { request, locals } code
  | read path => (fun _ => ()) <$> h.readFile path
  | reply change => Effect.reply change
  | refuse why => throw why

end Act

/-- The acts of an expansion that runs codes of one kind only. It leaves the response to its
snippets, and refuses nothing but malformed commands. -/
def Act.Expands (Code : String → Prop) : Act → Prop
  | .evaluate code _ | .execute code _ => Code code
  | .read _ => True
  | .reply _ => False
  | .refuse f => ∃ command message, f = .malformed command message

/-- The acts of an answer that runs codes of one kind only. That a file is missing is never said but
of a file that was to be read. -/
def Act.Serves (Code : String → Prop) : Act → Prop
  | .evaluate code _ | .execute code _ => Code code
  | .read _ | .reply _ => True
  | .refuse f => ∀ path, f ≠ .fileNotFound path

theorem Act.Serves.code {Code : String → Prop} {act : Act} {code : String}
    (allowed : act.Serves Code) (runs : code ∈ act.code?) : Code code := by
  cases act with
  | evaluate | execute =>
    cases runs
    exact allowed
  | _ => cases runs

theorem Act.Serves.mono {Code Other : String → Prop} (wider : ∀ code, Code code → Other code)
    {act : Act} (allowed : act.Serves Code) : act.Serves Other := by
  cases act with
  | evaluate code | execute code => exact wider code allowed
  | _ => exact allowed

theorem Act.Expands.serves {Code Other : String → Prop} (wider : ∀ code, Code code → Other code)
    (act : Act) (allowed : act.Expands Code) : act.Serves Other := by
  cases act with
  | evaluate code | execute code => exact wider code allowed
  | read | reply => trivial
  | refuse f =>
    obtain ⟨command, message, rfl⟩ := allowed
    nofun

/-- What makes an act fail so. -/
def Act.Causes (h : Host) (f : Failure) : Act → Prop
  | .evaluate code _ | .execute code _ => ∃ message, f = .evaluation code message
  | .read path => h.file path = .error f
  | .reply _ => False
  | .refuse why => why = f

/-- The failure in a result. -/
def failure? {α : Type} : Except Failure α → Option Failure
  | .ok _ => none
  | .error f => some f

@[simp] theorem failure?_ok {α : Type} (a : α) : failure? (.ok a : Except Failure α) = none := rfl

@[simp] theorem failure?_error {α : Type} (f : Failure) :
    failure? (.error f : Except Failure α) = some f := rfl

@[simp] theorem failure?_map {α β : Type} (g : α → β) (r : Except Failure α) :
    failure? (r.map g) = failure? r := by
  cases r <;> rfl

/-- From one state these acts lead to another, and only the last of them may have failed. -/
inductive Ran (h : Host) (request : Request) : List Act → State → Option Failure → State → Prop
  | done (s : State) : Ran h request [] s none s
  | failed {act : Act} {f : Failure} {s t : State}
      (last : (act.perform h request).outcome s = (.error f, t)) : Ran h request [act] s (some f) t
  | step {act : Act} {acts : List Act} {out : Option Failure} {s t u : State}
      (first : (act.perform h request).outcome s = (.ok (), t))
      (rest : Ran h request acts t out u) : Ran h request (act :: acts) s out u

variable {h : Host} {request : Request} {s t u : State}

theorem Ran.append {before after : List Act} {out : Option Failure}
    (first : Ran h request before s none t) (second : Ran h request after t out u) :
    Ran h request (before ++ after) s out u := by
  generalize hn : (none : Option Failure) = ok at first
  induction first with
  | done => exact second
  | failed => simp at hn
  | step one _ ih => exact .step one (ih second hn)

/-- An act by itself, whether it fails or not. -/
theorem Ran.single (h : Host) (request : Request) (act : Act) (s : State) :
    Ran h request [act] s (failure? ((act.perform h request).outcome s).1)
      ((act.perform h request).outcome s).2 := by
  rcases hr : (act.perform h request).outcome s with ⟨r, t⟩
  cases r with
  | error f => exact .failed hr
  | ok => exact .step hr (.done t)

theorem Act.causes_of_error {act : Act} {f : Failure}
    (failed : (act.perform h request).outcome s = (.error f, t)) : act.Causes h f := by
  cases act with
  | evaluate code locals => exact evaluate_error (Effect.map_error_iff.mp failed)
  | execute code locals => exact execute_error failed
  | read path =>
    have read := Effect.map_error_iff.mp failed
    rw [outcome_readFile] at read
    exact congrArg Prod.fst read
  | reply change => simp [perform] at failed
  | refuse why =>
    obtain ⟨same, -⟩ : why = f ∧ _ := by simpa [perform] using failed
    exact same

/-- A failure is caused by the last of the acts. -/
theorem Ran.cause {acts : List Act} {f : Failure} (ran : Ran h request acts s (some f) t) :
    ∃ before last, acts = before ++ [last] ∧ last.Causes h f := by
  generalize hf : some f = out at ran
  induction ran with
  | done => cases hf
  | @failed act g _ _ last =>
    obtain rfl : f = g := by simpa using hf
    exact ⟨[], act, rfl, Act.causes_of_error last⟩
  | @step act _ _ _ _ _ _ _ ih =>
    obtain ⟨before, last, rfl, causes⟩ := ih hf
    exact ⟨act :: before, last, rfl, causes⟩

/-- The codes of acts, in the order in which they run. -/
def codes (acts : List Act) : List String := acts.filterMap Act.code?

theorem codes_cons (act : Act) (acts : List Act) :
    codes (act :: acts) = act.code?.toList ++ codes acts := by
  cases hc : act.code? <;> simp [codes, hc]

theorem codes_singleton (act : Act) : codes [act] = act.code?.toList := by
  rw [codes_cons]
  exact List.append_nil _

theorem codes_append (before after : List Act) :
    codes (before ++ after) = codes before ++ codes after :=
  List.filterMap_append

/-- An act is noted in the journal by its code, whatever comes of it. -/
theorem Act.snippets_perform (act : Act) (s : State) :
    ((act.perform h request).outcome s).2.snippets = s.snippets ++ act.code?.toList := by
  cases act with
  | evaluate code locals =>
    simp only [perform, Effect.outcome_map]
    exact snippets_evaluate ..
  | execute code locals => exact snippets_execute ..
  | read path =>
    simp only [perform, Effect.outcome_map, outcome_readFile]
    exact s.snippets_record _
  | reply change => exact (List.append_nil _).symm
  | refuse why => exact (List.append_nil _).symm

/-- The journal tells which snippets ran. -/
theorem Ran.snippets {acts : List Act} {out : Option Failure} (ran : Ran h request acts s out t) :
    t.snippets = s.snippets ++ codes acts := by
  induction ran with
  | done => exact (List.append_nil _).symm
  | failed last => rw [← congrArg (·.2.snippets) last, Act.snippets_perform, codes_singleton]
  | step first rest ih =>
    rw [ih, ← congrArg (·.2.snippets) first, Act.snippets_perform, codes_cons, List.append_assoc]

/-- The acts of some work, which may depend on the engine, are all of one kind; and an engine that
runs the snippets among them alike makes no difference. -/
def Traced {α : Type} (h : Host) (request : Request) (P : Act → Prop) (s : State)
    (work : Engine → Effect α) : Prop :=
  ∃ acts, Ran h request acts s (failure? ((work h.engine).outcome s).1)
      ((work h.engine).outcome s).2 ∧
    (∀ act ∈ acts, P act) ∧
    ∀ engine, (∀ code ∈ codes acts, h.engine.AgreeOn engine code) →
      (work engine).outcome s = (work h.engine).outcome s

namespace Traced

variable {α β : Type} {P Q : Act → Prop} {Code : String → Prop}

theorem mono {work : Engine → Effect α} (wider : ∀ act, P act → Q act)
    (traced : Traced h request P s work) : Traced h request Q s work := by
  obtain ⟨acts, ran, allowed, same⟩ := traced
  exact ⟨acts, ran, fun act ha => wider act (allowed act ha), same⟩

theorem serves {Other : String → Prop} {work : Engine → Effect α}
    (traced : Traced h request (Act.Expands Code) s work)
    (wider : ∀ code, Code code → Other code) : Traced h request (Act.Serves Other) s work :=
  traced.mono (Act.Expands.serves wider)

theorem congr {work other : Engine → Effect α} (same : ∀ engine, work engine = other engine)
    (traced : Traced h request P s other) : Traced h request P s work := by
  obtain rfl : work = other := funext same
  exact traced

protected theorem pure (a : α) : Traced h request P s fun _ => pure a :=
  ⟨[], .done s, by simp, fun _ _ => rfl⟩

/-- Work that is one act, its value apart. -/
theorem single {work : Engine → Effect α} (act : Act) (allowed : P act)
    (performs : act.perform h request = (fun _ => ()) <$> work h.engine)
    (same : ∀ engine, (∀ code ∈ act.code?, h.engine.AgreeOn engine code) →
      work engine = work h.engine) :
    Traced h request P s work := by
  have ran := Ran.single h request act s
  rw [performs, Effect.outcome_map, failure?_map] at ran
  refine ⟨[act], ran, by simpa using allowed, fun engine agree => ?_⟩
  rw [same engine fun code hc => agree code (by simpa [codes_singleton] using hc)]

theorem refuse (f : Failure) (allowed : P (.refuse f)) :
    Traced h request P s fun _ => (throw f : Effect α) :=
  single (.refuse f) allowed rfl fun _ _ => rfl

theorem reply (change : Response → Response) (allowed : P (.reply change)) :
    Traced h request P s fun _ => Effect.reply change :=
  single (.reply change) allowed rfl fun _ _ => rfl

theorem readFile (path : String) (allowed : P (.read path)) :
    Traced h request P s fun _ => h.readFile path :=
  single (.read path) allowed rfl fun _ _ => rfl

theorem evaluate {locals : Fields} (code : String) (allowed : P (.evaluate code locals)) :
    Traced h request P s fun engine => RuleService.evaluate engine { request, locals } code := by
  refine single (.evaluate code locals) allowed rfl fun engine agree => ?_
  obtain ⟨expressions, -⟩ := agree code rfl
  simp only [RuleService.evaluate, runSnippet, expressions]

theorem execute {locals : Fields} (code : String) (allowed : P (.execute code locals)) :
    Traced h request P s fun engine => RuleService.execute engine { request, locals } code := by
  refine single (.execute code locals) allowed (id_map' _).symm fun engine agree => ?_
  obtain ⟨-, scripts⟩ := agree code rfl
  simp only [RuleService.execute, runSnippet, scripts]

/-- Work in two steps is traced if the second is, from where the first ends. -/
protected theorem bind {work : Engine → Effect α} {next : Engine → α → Effect β}
    (first : Traced h request P s work)
    (second : ∀ a t, (work h.engine).outcome s = (.ok a, t) →
      Traced h request P t fun engine => next engine a) :
    Traced h request P s fun engine => work engine >>= next engine := by
  obtain ⟨acts, ran, allowed, same⟩ := first
  rcases hw : (work h.engine).outcome s with ⟨r, t⟩
  rw [hw] at ran same
  cases r with
  | error f =>
    refine ⟨acts, ?_, allowed, fun engine agree => ?_⟩
    · simpa only [Effect.outcome_bind, hw, failure?_error] using ran
    · simp only [Effect.outcome_bind, same engine agree, hw]
  | ok a =>
    obtain ⟨more, ran', allowed', same'⟩ := second a t hw
    refine ⟨acts ++ more, ?_, ?_, fun engine agree => ?_⟩
    · simpa only [Effect.outcome_bind, hw] using ran.append ran'
    · intro act ha
      exact (List.mem_append.mp ha).elim (allowed act) (allowed' act)
    · rw [codes_append] at agree
      have one := same engine fun code hc => agree code (List.mem_append_left _ hc)
      have two := same' engine fun code hc => agree code (List.mem_append_right _ hc)
      simp only [Effect.outcome_bind, one, hw, two]

protected theorem map {work : Engine → Effect α} (g : α → β)
    (traced : Traced h request P s work) :
    Traced h request P s fun engine => g <$> work engine := by
  simp only [map_eq_pure_bind]
  exact traced.bind fun a t _ => .pure (g a)

theorem forM {as : List α} {f : Engine → α → Effect Unit}
    (each : ∀ a ∈ as, ∀ t, Traced h request P t fun engine => f engine a) :
    Traced h request P s fun engine => as.forM (f engine) := by
  induction as generalizing s with
  | nil => exact .pure ()
  | cons a as ih =>
    simp only [List.forM]
    refine (each a (by simp) s).bind fun _ t _ => ?_
    exact ih fun b hb => each b (by simp [hb])

theorem mapM {as : List α} {f : Engine → α → Effect β}
    (each : ∀ a ∈ as, ∀ t, Traced h request P t fun engine => f engine a) :
    Traced h request P s fun engine => as.mapM (f engine) := by
  induction as generalizing s with
  | nil => simpa only [List.mapM_nil] using Traced.pure []
  | cons a as ih =>
    simp only [List.mapM_cons]
    refine (each a (by simp) s).bind fun b t _ => ?_
    refine (ih fun c hc => each c (by simp [hc])).bind fun bs u _ => ?_
    exact .pure (b :: bs)

/-- The journal after acts that run codes of one kind only. -/
theorem snippets {work : Engine → Effect α}
    (traced : Traced h request (Act.Serves Code) s work) :
    ∃ codes, ((work h.engine).outcome s).2.snippets = s.snippets ++ codes ∧
      ∀ code ∈ codes, Code code := by
  obtain ⟨acts, ran, allowed, -⟩ := traced
  refine ⟨codes acts, ran.snippets, fun code hc => ?_⟩
  obtain ⟨act, ha, hcode⟩ := List.mem_filterMap.mp hc
  exact (allowed act ha).code hcode

/-- An engine that runs all codes of the kind alike makes no difference. -/
theorem outcome_eq {work : Engine → Effect α}
    (traced : Traced h request (Act.Serves Code) s work) {engine : Engine}
    (agree : ∀ code, Code code → h.engine.AgreeOn engine code) :
    (work engine).outcome s = (work h.engine).outcome s := by
  obtain ⟨acts, -, allowed, same⟩ := traced
  refine same engine fun code hc => ?_
  obtain ⟨act, ha, hcode⟩ := List.mem_filterMap.mp hc
  exact agree code ((allowed act ha).code hcode)

end Traced

end RuleService
