import RuleService.Proofs.Commit
import RuleService.Proofs.Reading

namespace RuleService

/-- Alike objects stay alike when a key of both is set to values that are alike. -/
theorem Json.Alike.put {before now after : Fields} {v w : Json}
    (alike : Json.Alike (.obj before) (.obj now)) (key : String) (values : v.Alike w)
    (set : ∀ k, Named.get? after k = Named.get? (now.put key w) k) :
    Json.Alike (.obj (before.put key v)) (.obj after) := by
  cases alike with
  | obj missing found =>
    refine .obj ?_ ?_
    · intro k
      rw [set k]
      by_cases same : k = key
      · subst same
        simp
      · rw [Named.get?_put_of_ne before v same, Named.get?_put_of_ne now w same]
        exact missing k
    · intro k a b first second
      rw [set k] at second
      by_cases same : k = key
      · subst same
        rw [Named.get?_put_self] at first second
        obtain rfl := Option.some.inj first
        obtain rfl := Option.some.inj second
        exact values
      · rw [Named.get?_put_of_ne before v same] at first
        rw [Named.get?_put_of_ne now w same] at second
        exact found k a b first second

/-- What an assignment makes of a response. -/
inductive Change where
  | status (n : Nat)
  | body (v : Json)
  | redirect (target : Option String)
  | header (name : String) (v : Json)

namespace Change

def apply (r : Response) : Change → Response
  | status n => { r with status := n }
  | body v => { r with body := v }
  | redirect target => { r with redirect := target }
  | header name v => { r with headers := r.headers.put name v }

/-- Where in the response it is. -/
def keys : Change → List String
  | status _ => ["status"]
  | body _ => ["body"]
  | redirect _ => ["redirect"]
  | header name _ => ["headers", name]

/-- The value that is assigned. -/
def value : Change → Json
  | status n => .int n
  | body v => v
  | redirect target => target.elim .null .str
  | header _ v => v

/-- That a response may have it. -/
def Fits : Change → Prop
  | status n => n ≤ Response.greatestStatus
  | _ => True

end Change

open Snippet Run Interpreter

namespace Snippet

/-- That a link leads to a key of a map, written as a property or as an index. -/
inductive Link.Leads (key : String) : Link → Prop
  | property : Link.Leads key (.property false key)
  | index : Link.Leads key (.index false (.str key))

theorem prepare_leads {n : Nat} {s : Surroundings} {m : Machine} {keys : List String}
    {links : List Link} (lead : List.Forall₂ Link.Leads keys links) :
    ∃ steps, outcome (prepare (run (n + 1)) s links) m = (.ok steps, m) ∧
      List.Forall₂ Interpreter.Leads keys steps := by
  induction lead with
  | nil => exact ⟨[], rfl, .nil⟩
  | @cons key _ _ _ first rest ih =>
    obtain ⟨steps, prepared, leads⟩ := ih
    cases first with
    | property =>
      refine ⟨_, ?_, .cons .property leads⟩
      rw [prepare, outcome_bind_ok prepared, outcome_pure]
    | index =>
      refine ⟨_, ?_, .cons .index leads⟩
      have read : outcome (run (n + 1) (.expr s (.str key))) m = (.ok (.str key), m) := rfl
      rw [prepare, outcome_bind_ok read, outcome_bind_ok prepared, outcome_pure]

end Snippet

/-- That a value of a handle stands for a response that is alike. -/
def Stands (r : Response) (v : Value) : Prop :=
  ∃ body headers b hs,
    v = .handle body (.map headers) (.ofJson (r.redirect.elim .null .str)) (.int r.status) ∧
    body.toJson? = some b ∧ Value.toJsonEntries? headers = some hs ∧ r.body.Alike b ∧
    Json.Alike (.obj r.headers) (.obj hs) ∧ r.status ≤ Response.greatestStatus

theorem stands_ofJson {r : Response} (fits : r.status ≤ Response.greatestStatus) :
    Stands r (.ofJson r.toJson) := by
  obtain ⟨b, given, bodies⟩ := Json.exchanged_alike r.body
  obtain ⟨hs, told, headers⟩ := Json.exchanged_entries r.headers
  refine ⟨.ofJson r.body, Value.ofJsonFields r.headers, b, hs, ?_, given, told, bodies, headers, fits⟩
  rw [Value.ofJson_response]
  simp [Value.ofJson, Response.isInt_of_status fits]

/-- A response is found in a value that stands for it. -/
theorem Stands.decoded {r : Response} {v : Value} (stands : Stands r v) :
    ∃ t, v.toJson?.bind Response.ofJson? = some t ∧ r.Alike t := by
  obtain ⟨body, headers, b, hs, rfl, given, told, bodies, alike, fits⟩ := stands
  obtain ⟨rd, redirect, target⟩ := Response.redirectOf_exchanged r.redirect
  exact ⟨⟨r.status, hs, b, r.redirect⟩,
    Value.response_of_handle given told redirect target rfl fits, rfl, alike, bodies, rfl⟩

/-- An assignment of a field that fits a response does to the handle what it does to the response. -/
theorem Stands.assign {r : Response} {v : Value} {change : Change} {go : Go} {s : Surroundings}
    {m : Machine} {steps : List Step} (stands : Stands r v) (fits : change.Fits)
    (leads : List.Forall₂ Interpreter.Leads change.keys steps) :
    ∃ w, outcome (walk go s (some (none, .ofJson change.value)) steps v) m =
      (.ok (.ok .unit, w), m) ∧ Stands (change.apply r) w := by
  obtain ⟨body, headers, b, hs, rfl, given, told, bodies, alike, bound⟩ := stands
  cases change with
  | status n =>
    obtain _ | ⟨lead, _ | _⟩ := leads
    refine ⟨_, walk_key lead rfl, body, headers, b, hs, ?_, given, told, bodies, alike, fits⟩
    rw [Value.handle, Change.value, Value.ofJson, if_pos (Response.isInt_of_status fits)]
    rfl
  | body v =>
    obtain _ | ⟨lead, _ | _⟩ := leads
    obtain ⟨x, form, values⟩ := Json.exchanged_alike v
    exact ⟨_, walk_key lead rfl, .ofJson v, headers, x, hs, rfl, form, told, values, alike, bound⟩
  | redirect target =>
    obtain _ | ⟨lead, _ | _⟩ := leads
    exact ⟨_, walk_key lead rfl, body, headers, b, hs, rfl, given, told, bodies, alike, bound⟩
  | header name v =>
    obtain _ | ⟨outer, _ | ⟨inner, _ | _⟩⟩ := leads
    obtain ⟨x, form, values⟩ := Json.exchanged_alike v
    obtain ⟨after, told', set⟩ := Value.toJsonEntries_setEntry told form name
    exact ⟨_, walk_inner_key outer rfl inner, body, _, b, after, rfl, given, told', bodies,
      alike.put name values set, bound⟩

/-- A statement that assigns a field of the response. -/
structure Write where
  name : String
  links : List Link
  expr : Expr
  change : Change

namespace Write

def stmt (w : Write) : Stmt := .assign none (.chain (.var w.name) w.links) w.expr

/-- That an assignment goes through a handle to its place, and that its value, which is one for that
place, is computed from anything but the handles. -/
structure Valid (start : Machine) (w : Write) : Prop where
  handle : w.name ∈ handles
  leads : List.Forall₂ Link.Leads w.change.keys w.links
  fits : w.change.Fits
  given : ∀ s m, (∀ name, name ∉ handles → m.find? name = start.find? name) →
    outcome (run (nestingLimit - 1) (.expr s w.expr)) m = (.ok (.ofJson w.change.value), m)

/-- The response with the assignments in their order. -/
def applied (writes : List Write) (r : Response) : Response :=
  writes.foldl (fun r w => w.change.apply r) r

/-- Those through one name. -/
def through (writes : List Write) (name : String) : List Write :=
  writes.filter (·.name == name)

theorem through_all {writes : List Write} {name : String} (all : ∀ w ∈ writes, w.name = name) :
    through writes name = writes := by
  apply List.filter_eq_self.mpr
  intro w member
  simpa using all w member

end Write

/-- That a machine differs from what it was at the start only in some of the handles, and that these
stand for the responses told. -/
structure Tracks (names : List String) (start : Machine) (told : String → Response) (m : Machine) :
    Prop where
  others : ∀ name, name ∉ names → m.find? name = start.find? name
  handle : ∀ name, name ∈ names →
    ∃ b, m.find? name = some b ∧ b.constant = false ∧ Stands (told name) b.value

variable {names : List String} {start m : Machine} {told : String → Response}

/-- One assignment changes the one handle that it goes through. -/
theorem Tracks.step {w : Write} (tracks : Tracks names start told m)
    (within : ∀ name ∈ names, name ∈ handles) (valid : w.Valid start) (listed : w.name ∈ names)
    (s : Surroundings) :
    ∃ m', outcome (run nestingLimit (.stmt s w.stmt)) m = (.ok .unit, m') ∧
      Tracks names start (Function.update told w.name (w.change.apply (told w.name))) m' := by
  obtain ⟨b, found, assignable, stands⟩ := tracks.handle w.name listed
  obtain ⟨n, deep⟩ := nestingLimit_eq_add (show 2 ≤ 1000 by omega)
  have given := valid.given s m fun name other => tracks.others name (mt (within name) other)
  rw [deep] at given ⊢
  obtain ⟨steps, prepared, leads⟩ := prepare_leads (s := s) (m := m) valid.leads
  obtain ⟨v, walked, standsAfter⟩ := stands.assign valid.fits leads
  refine ⟨m.store w.name v, execStmt_assign given prepared found assignable walked, ?_, ?_⟩
  · intro name other
    have differs : name ≠ w.name := by
      rintro rfl
      exact other listed
    rw [Machine.find?_store_of_ne differs]
    exact tracks.others name other
  · intro name handle
    by_cases same : name = w.name
    · subst same
      rw [Function.update_self]
      exact ⟨_, Machine.find?_store_self found v, assignable, standsAfter⟩
    · rw [Machine.find?_store_of_ne same, Function.update_of_ne same]
      exact tracks.handle name handle

theorem runBody_cons {go : Go} {s : Surroundings} {st : Stmt} {m' : Machine} (rest : List Stmt)
    (ran : outcome (go (.stmt s st)) m = (.ok .unit, m')) :
    outcome (runBody go s (st :: rest)) m = outcome (runBody go s rest) m' := by
  cases rest with
  | nil => exact ran
  | cons next rest => exact outcome_bind_ok ran

/-- All assignments together give each handle those that go through it. -/
theorem Tracks.run {writes : List Write} (tracks : Tracks names start told m)
    (within : ∀ name ∈ names, name ∈ handles) (valid : ∀ w ∈ writes, w.Valid start)
    (listed : ∀ w ∈ writes, w.name ∈ names) (s : Surroundings) :
    ∃ m', outcome (runBody (run nestingLimit) s (writes.map Write.stmt)) m = (.ok .unit, m') ∧
      Tracks names start (fun name => Write.applied (Write.through writes name) (told name)) m' := by
  induction writes generalizing m told with
  | nil => exact ⟨m, rfl, tracks⟩
  | cons w writes ih =>
    obtain ⟨first, rest⟩ := List.forall_mem_cons.mp valid
    obtain ⟨firstListed, restListed⟩ := List.forall_mem_cons.mp listed
    obtain ⟨m₁, ran, tracked⟩ := tracks.step within first firstListed s
    obtain ⟨m', later, done⟩ := ih tracked rest restListed
    refine ⟨m', ?_, ?_⟩
    · rw [List.map_cons, runBody_cons _ ran]
      exact later
    · convert done using 2 with name
      by_cases same : w.name = name
      · subst same
        simp [Write.through, Write.applied]
      · simp [Write.through, same, Function.update_of_ne (Ne.symm same)]

/-- A handle stands in the end for what is told of it. -/
theorem Tracks.decoded (tracks : Tracks names start told m) {name : String} (listed : name ∈ names)
    (r : Except Signal Value) :
    ∃ t, (finishOf r m).handle? name = some (some t) ∧ (told name).Alike t := by
  obtain ⟨b, found, -, stands⟩ := tracks.handle name listed
  obtain ⟨t, decoded, alike⟩ := stands.decoded
  have whole : m.content b.value = b.value := by
    obtain ⟨body, headers, x, hs, eq, -⟩ := stands
    rw [eq]
    rfl
  exact ⟨t, by rw [Finish.handle?, finishOf_binding r found, whole, Option.map_some, decoded], alike⟩

/-- Assignments are not dropped. -/
theorem simplify_stmts (writes : List Write) :
    simplifyBody (writes.map Write.stmt) = writes.map Write.stmt := by
  have kept : simplifyAll true (writes.map Write.stmt) = writes.map Write.stmt := by
    induction writes with
    | nil => rfl
    | cons w writes ih =>
      have same : w.stmt.simplify true = w.stmt := rfl
      rw [List.map_cons, simplifyAll, ih, same]
  rw [simplifyBody, kept]
  apply dropPure_eq
  intro st member
  obtain ⟨w, -, rfl⟩ := List.mem_map.mp member
  rfl

/-- That a response comes back from the engine as the same. -/
def Response.Steady (r : Response) : Prop :=
  ∃ back, r.toJson.exchanged.bind Response.ofJson? = some back ∧ back.same r = true

/-- What comes of the assignments of a snippet from `s` to `t`, which told `r`. -/
structure Merged (writes : List Write) (s t : State) (r : Except Failure Held) : Prop where
  /-- The snippet succeeds. -/
  succeeded : r.isOk = true
  /-- The handles are two copies: the first that changed is committed, and the other is lost. -/
  one_copy : ∃ res response,
    (Write.applied (Write.through writes "res") s.response).Alike res ∧
    (Write.applied (Write.through writes "response") s.response).Alike response ∧
    t.response = if res.same s.response then
      (if response.same s.response then s.response else response) else res
  /-- Nothing is lost if all assignments go through one name. -/
  one_name : ∀ name ∈ handles, (∀ w ∈ writes, w.name = name) → s.response.Steady →
    ∃ after, (Write.applied writes s.response).Alike after ∧
      (t.response = after ∨ t.response = s.response ∧ after.same s.response = true)

/-- What is committed of two handles that stand for responses. -/
theorem committedResponse_two {code : String} {finish : Finish} {old res response : Response}
    (first : finish.handle? "res" = some (some res))
    (second : finish.handle? "response" = some (some response)) :
    committedResponse code finish.binding old handles = .ok
      (if res.same old then (if response.same old then old else response) else res) := by
  cases kept : res.same old with
  | false => exact committedResponse_changed first kept
  | true =>
    have intact : finish.Intact old "res" := by
      intro decoded stands
      exact ⟨res, Option.some.inj (stands.symm.trans first), kept⟩
    rw [handles, committedResponse_intact intact]
    cases same : response.same old with
    | false => exact committedResponse_changed second same
    | true =>
      apply committedResponse_of_intact
      intro name member
      obtain rfl := List.mem_singleton.mp member
      intro decoded stands
      exact ⟨response, Option.some.inj (stands.symm.trans second), same⟩

variable {ctx : Context} {s : State} {seed : Nat}

theorem lookup_handle {name : String} (handle : name ∈ handles) (free : name ∉ ctx.locals.keys) :
    (bindingsFor ctx s).reverse.lookup name = some s.response.toJson := by
  rw [lookup_bindingsFor, lookup_local_none free]
  simp only [handles, List.mem_cons, List.not_mem_nil, or_false] at handle
  rcases handle with rfl | rfl <;> simp [List.lookup_cons]

theorem tracks_start (within : ∀ name ∈ names, name ∈ handles)
    (free : ∀ name ∈ handles, name ∉ ctx.locals.keys)
    (fits : s.response.status ≤ Response.greatestStatus) :
    Tracks names (Machine.ofBindings (bindingsFor ctx s) seed) (fun _ => s.response)
      (Machine.ofBindings (bindingsFor ctx s) seed) := by
  refine ⟨fun _ _ => rfl, ?_⟩
  intro name listed
  have handle := within name listed
  refine ⟨{ name, value := .ofJson s.response.toJson }, ?_, rfl, stands_ofJson fits⟩
  rw [Machine.find?_ofBindings, lookup_handle handle (free name handle), Option.map_some]

/-- A name that is as it was at the start has a JSON form, that of what it was given. -/
theorem binding_start {m : Machine} {name : String} (r : Except Signal Value)
    (same : m.find? name = (Machine.ofBindings (bindingsFor ctx s) seed).find? name) :
    (finishOf r m).binding name =
      ((bindingsFor ctx s).reverse.lookup name).map Json.exchanged := by
  rw [Machine.find?_ofBindings] at same
  cases given : (bindingsFor ctx s).reverse.lookup name with
  | none =>
    rw [given] at same
    simp [finishOf, same]
  | some v =>
    rw [given] at same
    rw [finishOf_binding r same, (Value.tidy_ofJson v).content]
    rfl

theorem isJson_start {m : Machine} {name : String} (r : Except Signal Value)
    (same : m.find? name = (Machine.ofBindings (bindingsFor ctx s) seed).find? name) :
    (finishOf r m).binding name ≠ some none := by
  rw [binding_start r same]
  intro noJson
  obtain ⟨v, -, gone⟩ := Option.map_eq_some_iff.mp noJson
  obtain ⟨w, given, -⟩ := Json.exchanged_alike v
  rw [given] at gone
  cases gone

/-- A handle that no assignment goes through comes back as it was given. -/
theorem Tracks.untouched {m : Machine} {name : String} {back : Response}
    (tracks : Tracks names (Machine.ofBindings (bindingsFor ctx s) seed) told m)
    (handle : name ∈ handles) (other : name ∉ names) (free : name ∉ ctx.locals.keys)
    (returned : s.response.toJson.exchanged.bind Response.ofJson? = some back)
    (r : Except Signal Value) : (finishOf r m).handle? name = some (some back) := by
  rw [Finish.handle?, binding_start r (tracks.others name other), lookup_handle handle free,
    Option.map_some, Option.map_some, returned]

theorem changed_or_same (after old : Response) :
    (if after.same old then old else after) = after ∨
      (if after.same old then old else after) = old ∧ after.same old = true := by
  split
  · next unchanged => exact .inr ⟨rfl, unchanged⟩
  · exact .inl rfl

/-- A snippet of assignments ends with each handle as those through it have made it. -/
theorem script_tracks (modules : Modules) (scripts : String → Option String) {code : String}
    {program : Program} {writes : List Write} (read : Program.ofText code = .ok program)
    (body : program.body = writes.map Write.stmt)
    (valid : ∀ w ∈ writes, w.Valid (Machine.ofBindings (bindingsFor ctx s) seed))
    (free : ∀ name ∈ handles, name ∉ ctx.locals.keys)
    (fits : s.response.status ≤ Response.greatestStatus)
    (within : ∀ name ∈ names, name ∈ handles) (listed : ∀ w ∈ writes, w.name ∈ names) :
    ∃ m, (engine modules scripts seed).script code (bindingsFor ctx s) = finishOf (.ok .unit) m ∧
      Tracks names (Machine.ofBindings (bindingsFor ctx s) seed)
        (fun name => Write.applied (Write.through writes name) s.response) m := by
  have simplified : program.simplify.body = writes.map Write.stmt := by
    rw [Program.simplify, body, simplify_stmts]
  obtain ⟨m, ended, tracks⟩ := (tracks_start within free fits).run within valid listed
    { functions := program.simplify.functions, modules := modules, scripts := scripts }
  refine ⟨m, ?_, tracks⟩
  apply script_eq modules scripts seed read
  rw [simplified]
  exact ended

/-- A snippet of assignments to the response leaves what the assignments through one of its names
make of it: those through `res` if they change anything, else those through `response`. -/
theorem runSnippet_merged (modules : Modules) (scripts : String → Option String) (seed : Nat)
    (ctx : Context) (code : String) (s : State) {t : State} {r : Except Failure Held}
    {program : Program} {writes : List Write} (read : Program.ofText code = .ok program)
    (body : program.body = writes.map Write.stmt)
    (valid : ∀ w ∈ writes, w.Valid (Machine.ofBindings (bindingsFor ctx s) seed))
    (free : ∀ name ∈ handles, name ∉ ctx.locals.keys)
    (fits : s.response.status ≤ Response.greatestStatus)
    (ran : (runSnippet (engine modules scripts seed).script ctx code).outcome s = (r, t)) :
    Merged writes s t r := by
  obtain ⟨m, way, tracks⟩ := script_tracks modules scripts read body valid free fits
    (fun _ handle => handle) (fun w member => (valid w member).handle)
  obtain ⟨res, resStands, resAlike⟩ := tracks.decoded (by decide : "res" ∈ handles) (.ok .unit)
  obtain ⟨response, responseStands, responseAlike⟩ :=
    tracks.decoded (by decide : "response" ∈ handles) (.ok .unit)
  have json := isJson_start (.ok .unit) (tracks.others "data" (by decide))
  obtain ⟨bag, written⟩ := committedData_isOk code s.data json
  obtain ⟨reported, -, committed⟩ :=
    settle_committed written (committedResponse_two resStands responseStands)
  rw [outcome_runSnippet, way] at ran
  obtain rfl : _ = r := congrArg Prod.fst ran
  obtain rfl : _ = t := congrArg Prod.snd ran
  refine
    { succeeded := ?_, one_copy := ⟨res, response, resAlike, responseAlike, committed⟩,
      one_name := ?_ }
  · rw [reported]
    rfl
  · intro name handle all steady
    obtain ⟨back, returned, same⟩ := steady
    have within : ∀ other ∈ [name], other ∈ handles := by simpa using handle
    have listed : ∀ w ∈ writes, w.name ∈ [name] := by simpa using all
    obtain ⟨m', way', alone⟩ :=
      script_tracks modules scripts read body valid free fits within listed
    have untouched (other : String) (handle : other ∈ handles) (differs : other ≠ name) :
        (finishOf (.ok .unit) m).handle? other = some (some back) := by
      rw [← way, way']
      exact alone.untouched handle (by simpa using differs) (free other handle) returned (.ok .unit)
    simp only [handles, List.mem_cons, List.not_mem_nil, or_false] at handle
    rcases handle with rfl | rfl
    · have kept := untouched "response" (by decide) (by decide)
      obtain rfl : back = response := by simpa [kept] using responseStands
      rw [Write.through_all all] at resAlike
      refine ⟨res, resAlike, ?_⟩
      rw [committed, if_pos same]
      exact changed_or_same res s.response
    · have kept := untouched "res" (by decide) (by decide)
      obtain rfl : back = res := by simpa [kept] using resStands
      rw [Write.through_all all] at responseAlike
      refine ⟨response, responseAlike, ?_⟩
      rw [committed, if_pos same]
      exact changed_or_same response s.response

/-- The assignment of a status through a name, as the property of it. -/
def Write.ofStatus (name : String) (n : Nat) : Write where
  name := name
  links := [.property false "status"]
  expr := .int n
  change := .status n

theorem Write.valid_ofStatus {name : String} {n : Nat} (start : Machine) (handle : name ∈ handles)
    (fits : n ≤ Response.greatestStatus) : (Write.ofStatus name n).Valid start where
  handle := handle
  leads := .cons .property .nil
  fits := fits
  given := by
    intro s m others
    obtain ⟨k, deep⟩ := nestingLimit_eq_add (show 2 ≤ 1000 by omega)
    rw [deep, Write.ofStatus, Change.value, Value.ofJson, if_pos (Response.isInt_of_status fits)]
    rfl

/-- A snippet that assigns the status through both names. -/
def bothNames : String := "res.status = 203; response.status = 204"

def isBothNames : Except Malformation Program → Bool
  | .ok ⟨[], [.assign none (.chain (.var "res") [.property false "status"]) (.int 203),
      .assign none (.chain (.var "response") [.property false "status"]) (.int 204)]⟩ => true
  | _ => false

theorem eq_of_isBothNames {p : Except Malformation Program} (read : isBothNames p = true) :
    p = .ok ⟨[], [Write.ofStatus "res" 203, Write.ofStatus "response" 204].map Write.stmt⟩ := by
  unfold isBothNames at read
  split at read
  · rfl
  · cases read

theorem read_bothNames : Program.ofText bothNames =
    .ok ⟨[], [Write.ofStatus "res" 203, Write.ofStatus "response" 204].map Write.stmt⟩ :=
  eq_of_isBothNames (by decide +kernel)

theorem valid_bothNames (start : Machine) :
    ∀ w ∈ [Write.ofStatus "res" 203, Write.ofStatus "response" 204], w.Valid start := by
  intro w member
  simp only [List.mem_cons, List.not_mem_nil, or_false] at member
  rcases member with rfl | rfl
  · exact Write.valid_ofStatus start (by decide) (by decide)
  · exact Write.valid_ofStatus start (by decide) (by decide)

/-- Of two assignments through the two names, the one through `res` is committed. -/
theorem runSnippet_merged_res : ∃ r t,
    (runSnippet bareEngine.script {} bothNames).outcome {} = (r, t) ∧ t.response.status = 203 ∧
    Merged [Write.ofStatus "res" 203, Write.ofStatus "response" 204] {} t r := by
  refine ⟨_, _, (Prod.eta _).symm, by decide +kernel, ?_⟩
  exact runSnippet_merged ownModules (fun _ => none) 0 {} bothNames {} read_bothNames rfl
    (valid_bothNames _) (by decide) (by decide) (Prod.eta _).symm

/-- Assignments through both names are not all kept. -/
theorem runSnippet_other_handle :
    ¬ ∀ (modules : Modules) (scripts : String → Option String) (seed : Nat) (ctx : Context)
        (code : String) (s t : State) (r : Except Failure Held) (program : Program)
        (writes : List Write), Program.ofText code = .ok program →
      program.body = writes.map Write.stmt →
      (∀ w ∈ writes, w.Valid (Machine.ofBindings (bindingsFor ctx s) seed)) →
      (∀ name ∈ handles, name ∉ ctx.locals.keys) → s.response.status ≤ Response.greatestStatus →
      (runSnippet (engine modules scripts seed).script ctx code).outcome s = (r, t) →
      (Write.applied writes s.response).Alike t.response := by
  intro always
  have alike := always ownModules (fun _ => none) 0 {} bothNames {} _ _ _ _ read_bothNames rfl
    (valid_bothNames _) (by decide) (by decide) (Prod.eta _).symm
  have committed : ((runSnippet (engine ownModules (fun _ => none) 0).script {} bothNames).outcome
      {}).2.response.status = 203 := by decide +kernel
  have promised := alike.status
  rw [committed] at promised
  exact absurd promised (by decide)

end RuleService
