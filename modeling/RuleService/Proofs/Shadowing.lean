import RuleService.Proofs.Commit
import RuleService.Proofs.Simplified

namespace RuleService

/-- The names under which a context gives a snippet what is its own. -/
def givenNames : List String := ["data", "request", "req", "response", "res"]

/-- That a run from `s` did nothing to the bag and the response, whatever it did to the variables
`own`, the latest first, whose names are some of those `declared`: in the end a name of the two stands
for what is declared under it, and if there is nothing, for what it stood for at the start. -/
structure Finish.Over (finish : Finish) (s : State) (declared : List String)
    (own : List (String × Held)) : Prop where
  names : own.map (·.1) ⊆ declared
  data : finish.binding "data" = (own.lookup "data").or (some (Json.obj s.data).exchanged)
  response : ∀ name ∈ handles,
    finish.binding name = (own.lookup name).or (some s.response.toJson.exchanged)

namespace Snippet

open Run

inductive Form where
  | script
  | expression

namespace Form

/-- How an engine runs it. -/
def way (engine : Engine) : Form → String → Bindings → Finish
  | script => engine.script
  | expression => engine.expression

/-- The variables that it leaves declared, in the order of the text. -/
def declares (code : String) : Form → List String
  | script =>
    match Program.ofText code with
    | .ok program => program.declares
    | .error _ => []
  | expression => []

/-- Whether it spares variables of these names; a text that cannot be read does. -/
def spares (names : List String) (code : String) : Form → Bool
  | script =>
    match Program.ofText code with
    | .ok program => stmtsSpare names program.body
    | .error _ => true
  | expression =>
    match Expr.ofText code with
    | .ok e => e.spares names
    | .error _ => true

end Form

/-- The bindings that a machine starts with are given variables. -/
theorem given_ofBindings (bindings : Bindings) (seed : Nat) :
    Given (bindings.map (·.1)) (Machine.ofBindings bindings seed).scope := by
  constructor
  · intro b member
    obtain ⟨field, inBindings, rfl⟩ := List.mem_map.mp member
    exact List.mem_map_of_mem (List.mem_reverse.mp inBindings)
  · intro b member
    obtain ⟨field, -, rfl⟩ := List.mem_map.mp member
    exact Value.tidy_ofJson field.2

theorem find?_eq_lookup (scope : List Binding) (look : Value → Held) (name : String) :
    (scope.find? (·.name == name)).map (fun b => look b.value) =
      (scope.map fun b => (b.name, look b.value)).lookup name := by
  induction scope with
  | nil => rfl
  | cons b rest ih =>
    by_cases same : b.name = name
    · simp [same]
    · have apart : (name == b.name) = false := by simpa using Ne.symm same
      simp [same, List.lookup_cons, apart, ih]

theorem scope_ofBindings_append (given others : Bindings) (seed : Nat) :
    (Machine.ofBindings (given ++ others) seed).scope =
      (Machine.ofBindings others seed).scope ++ (Machine.ofBindings given seed).scope := by
  simp [Machine.ofBindings]

/-- The locals of a context are in scope above what else it gives. -/
theorem above_ofBindings (given others : Bindings) (may : List String) (seed : Nat) :
    (Machine.ofBindings (given ++ others) seed).Above (Machine.ofBindings given seed).scope may
      (others.reverse.map (·.1)) := by
  refine ⟨_, [], scope_ofBindings_append given others seed, ?_, List.nil_subset _⟩
  rw [Machine.ofBindings, List.map_map]
  rfl

/-- On a machine with given variables as they were, names stand for what the others hold, and if there
is nothing, for what was given. -/
theorem finishOf_above {given : Bindings} {seed : Nat} {m : Machine} {may below : List String}
    (r : Except Signal Value) (above : m.Above (Machine.ofBindings given seed).scope may below) :
    ∃ own : List (String × Held), own.map (·.1) ⊆ may ++ below ∧ ∀ name, (finishOf r m).binding name =
      (own.lookup name).or ((given.reverse.lookup name).map Json.exchanged) := by
  obtain ⟨own, new, scope, named, allowed⟩ := above
  refine ⟨own.map fun b => (b.name, (m.content b.value).toJson?), ?_, ?_⟩
  · have same : (own.map fun b => (b.name, (m.content b.value).toJson?)).map (·.1) =
        new ++ below := by
      rw [List.map_map, ← named]
      rfl
    rw [same]
    exact List.append_subset.mpr
      ⟨fun _ member => List.mem_append_left _ (allowed member), List.subset_append_right _ _⟩
  · intro name
    have base := Machine.find?_ofBindings given seed name
    rw [Machine.find?] at base
    have looked := find?_eq_lookup own (fun v => (m.content v).toJson?) name
    rw [← looked]
    simp only [finishOf, Machine.find?, scope, List.find?_append, base]
    cases own.find? (·.name == name) with
    | some b => rfl
    | none =>
      cases given.reverse.lookup name with
      | none => rfl
      | some v => simp [(Value.tidy_ofJson v).content, Json.exchanged]

variable (modules : Modules) (scripts : String → Option String) (seed : Nat)

/-- A snippet that spares given variables only adds to those above them. -/
theorem way_above (given others : Bindings) {form : Form} {code : String}
    (spares : form.spares (given.map (·.1)) code = true) :
    ∃ r m, form.way (engine modules scripts seed) code (given ++ others) = finishOf r m ∧
      m.Above (Machine.ofBindings given seed).scope (form.declares code)
        (others.reverse.map (·.1)) := by
  have known := given_ofBindings given seed
  have start := above_ofBindings given others (form.declares code) seed
  cases form with
  | script =>
    unfold Form.spares at spares
    unfold Form.declares at start ⊢
    simp only [Form.way, engine]
    cases read : Program.ofText code with
    | error why =>
      rw [read] at start
      exact ⟨_, _, rfl, start⟩
    | ok program =>
      rw [read] at spares start
      refine ⟨_, _, rfl, Keeps.above ?_ _ start⟩
      have body := simplify_spares program spares
      exact (Interpreter.runBody_keeps (fun _ => Interpreter.run_keeps known _) body).mono
        (simplify_declares program)
  | expression =>
    unfold Form.spares at spares
    simp only [Form.way, engine]
    cases read : Expr.ofText code with
    | error why => exact ⟨_, _, rfl, start⟩
    | ok e =>
      rw [read] at spares
      refine ⟨_, _, rfl, Keeps.above ?_ _ start⟩
      exact Interpreter.evalExpr_keeps known (fun _ => Interpreter.run_keeps known _) spares

end Snippet

open Snippet

variable (modules : Modules) (scripts : String → Option String) (seed : Nat)

/-- The names that may hide what a context gives a snippet: those that it leaves declared, and those
of the locals. -/
def hidingNames (form : Form) (code : String) (ctx : Context) : List String :=
  form.declares code ++ ctx.locals.keys

/-- A snippet that spares what a context gives it may do what it likes to the locals and to variables
of its own. -/
theorem over_of_spares {form : Form} {code : String} (ctx : Context) (s : State)
    (spares : form.spares givenNames code = true) :
    ∃ own, (form.way (engine modules scripts seed) code (bindingsFor ctx s)).Over s
      (hidingNames form code ctx) own := by
  obtain ⟨r, m, ended, above⟩ := way_above modules scripts seed
    [("data", .obj s.data), ("request", ctx.request.toJson), ("req", ctx.request.toJson),
      ("response", s.response.toJson), ("res", s.response.toJson)] ctx.locals spares
  obtain ⟨own, names, binding⟩ := finishOf_above r above
  rw [bindingsFor, ended]
  refine ⟨own, ?_, ?_, ?_⟩
  · intro name member
    have listed := names member
    simpa [hidingNames, Named.keys] using listed
  · rw [binding]
    simp [List.lookup_cons]
  · intro name handle
    rw [binding]
    simp only [handles, List.mem_cons, List.not_mem_nil, or_false] at handle
    rcases handle with rfl | rfl <;> simp [List.lookup_cons]

/-- What is committed of a run from `s` to `t` that did nothing to the bag and the response. -/
structure OnlyHiding (declared : List String) (own : List (String × Held)) (s t : State) : Prop where
  /-- Nothing is hidden but under a declared name. -/
  bare : ∀ name, name ∉ declared → own.lookup name = none
  /-- A bag that nothing hides comes back. -/
  bag : own.lookup "data" = none → Json.Alike (.obj s.data) (.obj t.data)
  /-- A response that nothing hides comes back. -/
  response : (∀ name ∈ handles, own.lookup name = none) →
    s.response.status ≤ Response.greatestStatus → s.response.Alike t.response
  /-- An object that hides the bag becomes the bag. -/
  bag_replaced : ∀ fields, own.lookup "data" = some (some (.obj fields)) → t.data = fields
  /-- Anything else that hides it leaves it exactly as it was. -/
  bag_kept : ∀ held, own.lookup "data" = some held → held.bind Json.fields? = none →
    t.data = s.data
  /-- What hides `res` and stands for another response becomes the response. -/
  res_replaced : ∀ held new, own.lookup "data" ≠ some none → own.lookup "res" = some held →
    held.bind Response.ofJson? = some new → new.same s.response = false → t.response = new
  /-- So does what hides `response`, if `res` is in sight and comes back as the same. -/
  response_replaced : ∀ held new back, own.lookup "data" ≠ some none →
    own.lookup "res" = none → s.response.toJson.exchanged.bind Response.ofJson? = some back →
    back.same s.response = true → own.lookup "response" = some held →
    held.bind Response.ofJson? = some new → new.same s.response = false → t.response = new

section

variable {s t : State} {finish : Finish} {declared : List String} {own : List (String × Held)}

/-- A bag that stands for something is written or dropped, but no failure. -/
theorem Finish.Over.isJson (only : finish.Over s declared own)
    (json : own.lookup "data" ≠ some none) : finish.binding "data" ≠ some none := by
  rw [only.data]
  cases hides : own.lookup "data" with
  | some held =>
    rw [hides] at json
    exact json
  | none =>
    obtain ⟨after, given, -⟩ := Json.exchanged_obj s.data
    rw [given]
    simp

/-- What a run that did nothing to the bag and the response is settled as. -/
theorem Finish.Over.settled (only : finish.Over s declared own) (code : String) :
    OnlyHiding declared own s (settle code s finish).1 where
  bare name free := lookup_none fun member => free (only.names member)
  bag free := by
    apply settle_data_alike
    rw [only.data, free, Option.none_or]
  response free fits := by
    apply settle_response_alike fits
    intro name handle
    rw [only.response name handle, free name handle, Option.none_or]
  bag_replaced fields hides := by
    apply settle_data
    rw [only.data, hides]
    rfl
  bag_kept held hides other := by
    have bound : finish.binding "data" = some held := by rw [only.data, hides, Option.some_or]
    cases held with
    | none =>
      obtain ⟨message, refused⟩ := committedData_refused code s.data
      rw [← bound] at refused
      exact (settle_refused refused).2.1
    | some v =>
      apply settle_data
      rw [bound]
      exact committedData_other s.data other
  res_replaced held new json hides decoded differs := by
    obtain ⟨bag, written⟩ := committedData_isOk code s.data (only.isJson json)
    have stands : finish.handle? "res" = some (some new) := by
      rw [Finish.handle?, only.response "res" (by decide), hides, Option.some_or, Option.map_some,
        decoded]
    have replied : committedResponse code finish.binding s.response handles = .ok new :=
      committedResponse_changed stands differs
    exact (settle_committed written replied).2.2
  response_replaced held new back json free returned same hides decoded differs := by
    obtain ⟨bag, written⟩ := committedData_isOk code s.data (only.isJson json)
    have intact : finish.Intact s.response "res" := by
      intro r stands
      rw [Finish.handle?, only.response "res" (by decide), free, Option.none_or, Option.map_some,
        returned] at stands
      exact ⟨back, (Option.some.inj stands).symm, same⟩
    have stands : finish.handle? "response" = some (some new) := by
      rw [Finish.handle?, only.response "response" (by decide), hides, Option.some_or,
        Option.map_some, decoded]
    have replied : committedResponse code finish.binding s.response handles = .ok new := by
      rw [handles, committedResponse_intact intact]
      exact committedResponse_changed stands differs
    exact (settle_committed written replied).2.2

end

end RuleService
