import RuleService.Proofs.Bindings
import RuleService.Proofs.Conversion
import RuleService.Proofs.Journal

namespace RuleService

namespace Finish

/-- What a handle stands for at the end of a run; none inside if that is no response. -/
def handle? (finish : Finish) (name : String) : Option (Option Response) :=
  (finish.binding name).map (·.bind Response.ofJson?)

/-- That a handle, if it is there, stands for the response that it started as. -/
def Intact (finish : Finish) (old : Response) (name : String) : Prop :=
  ∀ decoded, finish.handle? name = some decoded → ∃ r, decoded = some r ∧ r.same old = true

/-- That a handle is looked at: all before it are intact. -/
def Reached (finish : Finish) (old : Response) (name : String) : Prop :=
  ∃ before after, handles = before ++ name :: after ∧ ∀ earlier ∈ before, finish.Intact old earlier

/-- What a run tells if all it left could be committed. -/
def told (finish : Finish) (code : String) : Except Failure Held :=
  finish.outcome.mapError (.evaluation code)

end Finish

variable {code : String} {s : State} {finish : Finish} {old : Response} {f : Failure}

theorem committedResponse_nil : committedResponse code finish.binding old [] = .ok old := rfl

theorem committedResponse_intact {name : String} {names : List String}
    (intact : finish.Intact old name) :
    committedResponse code finish.binding old (name :: names) =
      committedResponse code finish.binding old names := by
  rw [committedResponse]
  cases bound : finish.binding name with
  | none => rfl
  | some held =>
    have decoded : finish.handle? name = some (held.bind Response.ofJson?) := by
      simp [Finish.handle?, bound]
    obtain ⟨r, eq, same⟩ := intact _ decoded
    simp [eq, same]

theorem committedResponse_changed {name : String} {names : List String} {new : Response}
    (stands : finish.handle? name = some (some new)) (differs : new.same old = false) :
    committedResponse code finish.binding old (name :: names) = .ok new := by
  obtain ⟨held, bound, eq⟩ := Option.map_eq_some_iff.mp stands
  simp [committedResponse, bound, eq, differs]

theorem committedResponse_spoilt (code : String) (old : Response) (names : List String)
    {name : String} (stands : finish.handle? name = some none) :
    ∃ message, committedResponse code finish.binding old (name :: names) =
      .error (.evaluation code message) := by
  obtain ⟨held, bound, eq⟩ := Option.map_eq_some_iff.mp stands
  refine ⟨"invalid \x60" ++ name ++ "\x60 handle: it does not stand for a response", ?_⟩
  simp [committedResponse, bound, eq]

theorem committedResponse_skip {before names : List String}
    (intact : ∀ name ∈ before, finish.Intact old name) :
    committedResponse code finish.binding old (before ++ names) =
      committedResponse code finish.binding old names := by
  induction before with
  | nil => rfl
  | cons name before ih =>
    rw [List.cons_append, committedResponse_intact (intact name List.mem_cons_self)]
    exact ih fun other later => intact other (List.mem_cons_of_mem _ later)

theorem committedResponse_of_intact (code : String) {names : List String}
    (intact : ∀ name ∈ names, finish.Intact old name) :
    committedResponse code finish.binding old names = .ok old := by
  have skipped : committedResponse code finish.binding old (names ++ []) =
      committedResponse code finish.binding old [] := committedResponse_skip intact
  rwa [List.append_nil, committedResponse_nil] at skipped

/-- What is committed is what was there, or what one of the handles stands for. -/
theorem committedResponse_ok {names : List String} {new : Response}
    (done : committedResponse code finish.binding old names = .ok new) :
    new = old ∨ ∃ name ∈ names, finish.handle? name = some (some new) := by
  induction names with
  | nil =>
    left
    rw [committedResponse_nil] at done
    exact (Except.ok.inj done).symm
  | cons name names ih =>
    by_cases intact : finish.Intact old name
    · rw [committedResponse_intact intact] at done
      rcases ih done with kept | ⟨other, member, stands⟩
      · exact .inl kept
      · exact .inr ⟨other, List.mem_cons_of_mem _ member, stands⟩
    · right
      refine ⟨name, List.mem_cons_self, ?_⟩
      simp only [Finish.Intact, not_forall] at intact
      obtain ⟨decoded, stands, changed⟩ := intact
      cases decoded with
      | none =>
        obtain ⟨message, failed⟩ := committedResponse_spoilt code old names stands
        rw [failed] at done
        cases done
      | some r =>
        have differs : r.same old = false := by simpa using changed
        rw [committedResponse_changed stands differs] at done
        rw [stands, Except.ok.inj done]

theorem Finish.Reached.committed (code : String) {name : String}
    (reached : finish.Reached old name) :
    ∃ after, committedResponse code finish.binding old handles =
      committedResponse code finish.binding old (name :: after) := by
  obtain ⟨before, after, split, intact⟩ := reached
  exact ⟨after, by rw [split, committedResponse_skip intact]⟩

theorem committedData_refused (code : String) (data : Fields) :
    ∃ message, committedData code data (some none) = .error (.evaluation code message) :=
  ⟨_, rfl⟩

theorem committedData_other {v : Json} (data : Fields) (other : v.fields? = none) :
    committedData code data (some (some v)) = .ok data := by
  cases v with
  | obj fields => cases other
  | _ => rfl

/-- What is committed is what was there, or the object that the bag was left as. -/
theorem committedData_ok {held : Option Held} {data bag : Fields}
    (done : committedData code data held = .ok bag) :
    bag = data ∨ held = some (some (.obj bag)) := by
  unfold committedData at done
  split at done
  · exact .inl (Except.ok.inj done).symm
  · cases done
  · next fields =>
    right
    rw [Except.ok.inj done]
  · exact .inl (Except.ok.inj done).symm

theorem committedData_isOk (code : String) {held : Option Held} (data : Fields)
    (json : held ≠ some none) :
    ∃ bag, committedData code data held = .ok bag := by
  match held with
  | none => exact ⟨data, rfl⟩
  | some none => exact absurd rfl json
  | some (some (.obj fields)) => exact ⟨fields, rfl⟩
  | some (some .null) | some (some (.bool _)) | some (some (.int _)) | some (some (.float _))
  | some (some (.str _)) | some (some (.arr _)) => exact ⟨data, rfl⟩

theorem settle_refused (refused : committedData code s.data (finish.binding "data") = .error f) :
    (settle code s finish).2 = .error f ∧ (settle code s finish).1.data = s.data ∧
      (settle code s finish).1.response = s.response := by
  simp [settle, commit, refused]

theorem settle_spoilt {bag : Fields}
    (written : committedData code s.data (finish.binding "data") = .ok bag)
    (spoilt : committedResponse code finish.binding s.response handles = .error f) :
    (settle code s finish).2 = .error f ∧ (settle code s finish).1.data = bag ∧
      (settle code s finish).1.response = s.response := by
  simp [settle, commit, written, spoilt]

theorem settle_committed {bag : Fields} {new : Response}
    (written : committedData code s.data (finish.binding "data") = .ok bag)
    (replied : committedResponse code finish.binding s.response handles = .ok new) :
    (settle code s finish).2 = finish.told code ∧ (settle code s finish).1.data = bag ∧
      (settle code s finish).1.response = new := by
  simp [settle, commit, written, replied, Finish.told]

/-- The committed bag is that of the final bindings, whatever the handles say. -/
theorem settle_data {bag : Fields}
    (written : committedData code s.data (finish.binding "data") = .ok bag) :
    (settle code s finish).1.data = bag := by
  cases replied : committedResponse code finish.binding s.response handles with
  | error f => exact (settle_spoilt written replied).2.1
  | ok new => exact (settle_committed written replied).2.1

theorem settle_data_cases (code : String) (s : State) (finish : Finish) :
    (settle code s finish).1.data = s.data ∨
      finish.binding "data" = some (some (.obj (settle code s finish).1.data)) := by
  cases written : committedData code s.data (finish.binding "data") with
  | error f => exact .inl (settle_refused written).2.1
  | ok bag =>
    rw [settle_data written]
    exact committedData_ok written

theorem settle_response_cases (code : String) (s : State) (finish : Finish) :
    (settle code s finish).1.response = s.response ∨
      ∃ name ∈ handles, finish.handle? name = some (some (settle code s finish).1.response) := by
  cases written : committedData code s.data (finish.binding "data") with
  | error f => exact .inl (settle_refused written).2.2
  | ok bag =>
    cases replied : committedResponse code finish.binding s.response handles with
    | error f => exact .inl (settle_spoilt written replied).2.2
    | ok new =>
      rw [(settle_committed written replied).2.2]
      exact committedResponse_ok replied

theorem committedData_toOption (code code' : String) (data : Fields) (held : Option Held) :
    (committedData code data held).toOption = (committedData code' data held).toOption := by
  unfold committedData
  split <;> rfl

theorem committedResponse_toOption (code code' : String) (binding : String → Option Held)
    (old : Response) (names : List String) :
    (committedResponse code binding old names).toOption =
      (committedResponse code' binding old names).toOption := by
  induction names with
  | nil => rfl
  | cons name names ih =>
    unfold committedResponse
    split
    · exact ih
    · split
      · rfl
      · split
        · exact ih
        · rfl

theorem settle_data_eq :
    (settle code s finish).1.data =
      (committedData code s.data (finish.binding "data")).toOption.getD s.data := by
  cases written : committedData code s.data (finish.binding "data") with
  | error f => exact (settle_refused written).2.1
  | ok bag => exact settle_data written

theorem settle_response_eq :
    (settle code s finish).1.response =
      ((committedData code s.data (finish.binding "data")).toOption.bind fun _ =>
        (committedResponse code finish.binding s.response handles).toOption).getD s.response := by
  cases written : committedData code s.data (finish.binding "data") with
  | error f => exact (settle_refused written).2.2
  | ok bag =>
    cases replied : committedResponse code finish.binding s.response handles with
    | error f => exact (settle_spoilt written replied).2.2
    | ok new => exact (settle_committed written replied).2.2

/-- Two runs that left the same bindings leave the same bag and response, however they ended. -/
theorem settle_congr {other : Finish} (code' : String) (same : other.binding = finish.binding) :
    (settle code' s other).1.data = (settle code s finish).1.data ∧
      (settle code' s other).1.response = (settle code s finish).1.response := by
  constructor
  · rw [settle_data_eq, settle_data_eq, same, committedData_toOption code' code]
  · rw [settle_response_eq, settle_response_eq, same, committedData_toOption code' code,
      committedResponse_toOption code' code]

/-- That a name stands at the end for what it stood for at the start. -/
def Finish.Keeps (finish : Finish) (given : Bindings) (name : String) : Prop :=
  finish.binding name = (given.reverse.lookup name).map Json.exchanged

theorem lookup_bindingsFor (ctx : Context) (s : State) (name : String) :
    (bindingsFor ctx s).reverse.lookup name =
      (ctx.locals.reverse.lookup name).or
        ([("res", s.response.toJson), ("response", s.response.toJson), ("req", ctx.request.toJson),
          ("request", ctx.request.toJson), ("data", .obj s.data)].lookup name) := by
  rw [bindingsFor, List.reverse_append, List.lookup_append]
  rfl

/-- But for the bag and the response, the names of a context stand for the same in every state. -/
theorem lookup_bindingsFor_other (ctx : Context) {s t : State} {name : String}
    (other : name ∉ "data" :: handles) :
    (bindingsFor ctx t).reverse.lookup name = (bindingsFor ctx s).reverse.lookup name := by
  simp only [handles, List.mem_cons, List.not_mem_nil, or_false, not_or] at other
  obtain ⟨noData, noRes, noResponse⟩ := other
  have h₁ : (name == "res") = false := by simp [noRes]
  have h₂ : (name == "response") = false := by simp [noResponse]
  have h₃ : (name == "data") = false := by simp [noData]
  simp [lookup_bindingsFor, List.lookup_cons, h₁, h₂, h₃]

/-- A local hides what it shares its name with, and nothing else. -/
theorem lookup_local_none {ctx : Context} {name : String} (free : name ∉ ctx.locals.keys) :
    ctx.locals.reverse.lookup name = none := by
  apply lookup_none
  rw [List.map_reverse, List.mem_reverse]
  exact free

/-- The bag comes back alike when its name stands for what it stood for. -/
theorem settle_data_alike (back : finish.binding "data" = some (Json.obj s.data).exchanged) :
    Json.Alike (.obj s.data) (.obj (settle code s finish).1.data) := by
  obtain ⟨after, given, alike⟩ := Json.exchanged_obj s.data
  rw [given] at back
  have written : committedData code s.data (finish.binding "data") = .ok after := by
    rw [back]
    rfl
  rwa [settle_data written]

/-- The response comes back alike when its names stand for what they stood for. -/
theorem settle_response_alike (fits : s.response.status ≤ Response.greatestStatus)
    (back : ∀ name ∈ handles, finish.binding name = some s.response.toJson.exchanged) :
    s.response.Alike (settle code s finish).1.response := by
  obtain ⟨new, stands, alike⟩ := Response.exchanged_alike s.response fits
  rcases settle_response_cases code s finish with kept | changed
  · rw [kept]
    exact .refl _
  · obtain ⟨name, member, eq⟩ := changed
    rw [Finish.handle?, back name member, Option.map_some, stands] at eq
    have same : new = (settle code s finish).1.response := by simpa using eq
    rwa [← same]

/-- What it is that a run from `s`, which ended as `finish`, told `r` and left `t`, was committed as a
whole. -/
structure WholeCommit (ctx : Context) (code : String) (s : State) (finish : Finish)
    (r : Except Failure Held) (t : State) : Prop where
  /-- The bag is what it was, or the object that the run left it as. -/
  bag : t.data = s.data ∨ finish.binding "data" = some (some (.obj t.data))
  /-- The response is what it was, or what one of its handles stands for. -/
  response : t.response = s.response ∨
    ∃ name ∈ handles, finish.handle? name = some (some t.response)
  /-- To the snippets that follow, the request and the locals are what they were. -/
  others : ∀ name, name ∉ "data" :: handles →
    (bindingsFor ctx t).reverse.lookup name = (bindingsFor ctx s).reverse.lookup name
  /-- A bag without a JSON form is a failure, and changes nothing. -/
  refused : finish.binding "data" = some none →
    t.data = s.data ∧ t.response = s.response ∧ ∃ message, r = .error (.evaluation code message)
  /-- An object becomes the bag, whatever the handles are. -/
  written : ∀ bag, finish.binding "data" = some (some (.obj bag)) → t.data = bag
  /-- A bag that is no object is dropped. -/
  dropped : ∀ v, finish.binding "data" = some (some v) → v.fields? = none → t.data = s.data
  /-- Handles that stand for what they stood for leave the response and the outcome alone. -/
  kept : finish.binding "data" ≠ some none → (∀ name ∈ handles, finish.Intact s.response name) →
    t.response = s.response ∧ r = finish.told code
  /-- The first handle that stands for another response is committed. -/
  changed : finish.binding "data" ≠ some none → ∀ name new, finish.Reached s.response name →
    finish.handle? name = some (some new) → new.same s.response = false →
    t.response = new ∧ r = finish.told code
  /-- A handle that is looked at and stands for no response is a failure. -/
  spoilt : finish.binding "data" ≠ some none → ∀ name, finish.Reached s.response name →
    finish.handle? name = some none →
    t.response = s.response ∧ ∃ message, r = .error (.evaluation code message)
  /-- Every run that leaves these bindings leaves this bag and this response. -/
  determined : ∀ way' ctx' code' r' t', (way' code' (bindingsFor ctx' s)).binding = finish.binding →
    (runSnippet way' ctx' code').outcome s = (r', t') →
    t'.data = t.data ∧ t'.response = t.response
  /-- A run that leaves the bindings as they were leaves the bag and the response alike. -/
  unchanged : (∀ name ∈ "data" :: handles,
      name ∉ ctx.locals.keys ∧ finish.Keeps (bindingsFor ctx s) name) →
    s.response.status ≤ Response.greatestStatus →
    Json.Alike (.obj s.data) (.obj t.data) ∧ s.response.Alike t.response

theorem Finish.Keeps.binding {ctx : Context} {name : String} {v : Json}
    (kept : finish.Keeps (bindingsFor ctx s) name) (free : name ∉ ctx.locals.keys)
    (given : [("res", s.response.toJson), ("response", s.response.toJson),
      ("req", ctx.request.toJson), ("request", ctx.request.toJson), ("data", .obj s.data)].lookup
        name = some v) :
    finish.binding name = some v.exchanged := by
  rw [Finish.Keeps, lookup_bindingsFor, lookup_local_none free, Option.none_or, given] at kept
  exact kept

theorem settle_whole (ctx : Context) (code : String) (s : State) (finish : Finish) :
    WholeCommit ctx code s finish (settle code s finish).2 (settle code s finish).1 where
  bag := settle_data_cases code s finish
  response := settle_response_cases code s finish
  others _ other := lookup_bindingsFor_other ctx other
  refused noJson := by
    obtain ⟨message, refused⟩ := committedData_refused code s.data
    rw [← noJson] at refused
    obtain ⟨told, data, response⟩ := settle_refused refused
    exact ⟨data, response, message, told⟩
  written bag object := by
    apply settle_data
    rw [object]
    rfl
  dropped v json other := by
    apply settle_data
    rw [json]
    exact committedData_other s.data other
  kept json intact := by
    obtain ⟨bag, written⟩ := committedData_isOk code s.data json
    have replied := committedResponse_of_intact code intact
    obtain ⟨told, -, response⟩ := settle_committed written replied
    exact ⟨response, told⟩
  changed json name new reached stands differs := by
    obtain ⟨bag, written⟩ := committedData_isOk code s.data json
    obtain ⟨after, replied⟩ := reached.committed code
    rw [committedResponse_changed stands differs] at replied
    obtain ⟨told, -, response⟩ := settle_committed written replied
    exact ⟨response, told⟩
  spoilt json name reached stands := by
    obtain ⟨bag, written⟩ := committedData_isOk code s.data json
    obtain ⟨after, replied⟩ := reached.committed code
    obtain ⟨message, failed⟩ := committedResponse_spoilt code s.response after stands
    obtain ⟨told, -, response⟩ := settle_spoilt written (replied.trans failed)
    exact ⟨response, message, told⟩
  determined way' ctx' code' r' t' same ran' := by
    rw [outcome_runSnippet] at ran'
    obtain rfl : _ = t' := congrArg Prod.snd ran'
    exact settle_congr code' same
  unchanged kept fits := by
    constructor
    · obtain ⟨free, keeps⟩ := kept "data" List.mem_cons_self
      exact settle_data_alike (keeps.binding free (by simp [List.lookup_cons]))
    · apply settle_response_alike fits
      intro name member
      obtain ⟨free, keeps⟩ := kept name (List.mem_cons_of_mem _ member)
      apply keeps.binding free
      simp only [handles, List.mem_cons, List.not_mem_nil, or_false] at member
      rcases member with rfl | rfl <;> simp [List.lookup_cons]

/-- A run is committed as a whole, however it ends: the bag and the response are each as before or as
the run left them. -/
theorem runSnippet_whole {way : String → Bindings → Finish} {ctx : Context} {code : String}
    {s t : State} {finish : Finish} {r : Except Failure Held}
    (ended : way code (bindingsFor ctx s) = finish)
    (ran : (runSnippet way ctx code).outcome s = (r, t)) : WholeCommit ctx code s finish r t := by
  rw [outcome_runSnippet, ended] at ran
  obtain rfl : (settle code s finish).2 = r := congrArg Prod.fst ran
  obtain rfl : (settle code s finish).1 = t := congrArg Prod.snd ran
  exact settle_whole ctx code s finish

/-- The engine with the modules that every engine has, and no script files. -/
def bareEngine : Engine := Snippet.engine Snippet.ownModules (fun _ => none) 0

/-- What was written before an error is committed. -/
theorem runSnippet_whole_thrown : ∃ r t,
    (runSnippet bareEngine.script {} "data.a = 1; throw 2").outcome {} = (r, t) ∧
    Json.same (.obj t.data) (.obj [("a", .int 1)]) = true ∧ r.isOk = false ∧
    WholeCommit {} "data.a = 1; throw 2" {}
      (bareEngine.script "data.a = 1; throw 2" (bindingsFor {} {})) r t :=
  ⟨_, _, (Prod.eta _).symm, by decide +kernel, by decide +kernel,
    runSnippet_whole rfl (Prod.eta _).symm⟩

/-- A handle that stands for no response goes unnoticed behind one that stands for another. -/
theorem runSnippet_spoilt_unnoticed :
    ¬ ∀ (way : String → Bindings → Finish) (ctx : Context) (code : String) (s t : State)
        (r : Except Failure Held), (runSnippet way ctx code).outcome s = (r, t) →
      ∀ name ∈ handles, (way code (bindingsFor ctx s)).handle? name = some none →
        (∃ f, r = .error f) ∧ t.response = s.response := by
  intro always
  have spoilt : ((bareEngine.script "res.status = 201; response = 5" (bindingsFor {} {})).handle?
      "response").map Option.isNone = some true := by decide +kernel
  obtain ⟨decoded, stands, isNone⟩ := Option.map_eq_some_iff.mp spoilt
  rw [Option.isNone_iff_eq_none.mp isNone] at stands
  have changed : ((runSnippet bareEngine.script {} "res.status = 201; response = 5").outcome
      {}).2.response.status = 201 := by decide +kernel
  obtain ⟨-, kept⟩ := always bareEngine.script {} "res.status = 201; response = 5" {} _ _
    (Prod.eta _).symm "response" (by decide) stands
  rw [kept] at changed
  exact absurd changed (by decide)

end RuleService
