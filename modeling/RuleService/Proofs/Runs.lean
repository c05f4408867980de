import RuleService.Proofs.Conversion

namespace RuleService.Snippet

namespace Run

variable {α β : Type}

/-- The result of a run and the machine it leaves. -/
def outcome (x : Run α) (m : Machine) : Except Signal α × Machine := x.run m

variable (m : Machine)

@[simp] theorem outcome_pure (a : α) : outcome (pure a : Run α) m = (.ok a, m) := rfl

@[simp] theorem outcome_throw (e : Signal) : outcome (throw e : Run α) m = (.error e, m) := rfl

@[simp] theorem outcome_get : outcome (get : Run Machine) m = (.ok m, m) := rfl

@[simp] theorem outcome_set (m' : Machine) : outcome (set m' : Run Unit) m = (.ok (), m') := rfl

@[simp] theorem outcome_modify (g : Machine → Machine) :
    outcome (modify g : Run Unit) m = (.ok (), g m) := rfl

@[simp] theorem outcome_resume (r : Except Signal α) : outcome (resume r) m = (r, m) := rfl

theorem outcome_bind (x : Run α) (next : α → Run β) :
    outcome (x >>= next) m = match outcome x m with
      | (.ok a, m') => outcome (next a) m'
      | (.error e, m') => (.error e, m') := by
  change (match outcome x m with | (a, m') => ExceptT.bindCont next a m') = _
  rcases outcome x m with ⟨r, m'⟩
  cases r <;> rfl

theorem outcome_map (g : α → β) (x : Run α) :
    outcome (g <$> x) m = ((outcome x m).1.map g, (outcome x m).2) := by
  rw [map_eq_pure_bind, outcome_bind]
  rcases outcome x m with ⟨r, m'⟩
  cases r <;> rfl

variable {m}

theorem outcome_bind_ok {x : Run α} {next : α → Run β} {a : α} {m' : Machine}
    (ok : outcome x m = (.ok a, m')) : outcome (x >>= next) m = outcome (next a) m' := by
  rw [outcome_bind, ok]

end Run

namespace Machine

theorem find?_ofBindings (bindings : Bindings) (seed : Nat) (name : String) :
    (ofBindings bindings seed).find? name =
      (bindings.reverse.lookup name).map fun v => { name, value := Value.ofJson v } := by
  rw [find?, ofBindings]
  induction bindings.reverse with
  | nil => rfl
  | cons kv rest ih =>
    obtain ⟨k, v⟩ := kv
    by_cases same : k = name
    · subst same
      simp
    · have other : (name == k) = false := by simp [Ne.symm same]
      simp [same, List.lookup_cons, other, ih]

theorem find?_replace_self (name : String) (v : Value) (scope : List Binding) :
    (replace name v scope).find? (·.name == name) =
      (scope.find? (·.name == name)).map fun b => { b with value := v } := by
  induction scope with
  | nil => rfl
  | cons b rest ih =>
    by_cases same : b.name = name
    · simp [replace, same]
    · simp [replace, same, ih]

theorem find?_replace_of_ne {name other : String} (differs : other ≠ name) (v : Value)
    (scope : List Binding) :
    (replace name v scope).find? (·.name == other) = scope.find? (·.name == other) := by
  induction scope with
  | nil => rfl
  | cons b rest ih =>
    by_cases same : b.name = name
    · have apart : ¬ b.name = other := fun eq => differs (eq.symm.trans same)
      simp [replace, same, Ne.symm differs]
    · by_cases found : b.name = other
      · simp [replace, found, differs]
      · simp [replace, same, found, ih]

/-- The machine with another value in the latest variable of a name. -/
def store (m : Machine) (name : String) (v : Value) : Machine :=
  { m with scope := replace name v m.scope }

theorem find?_store_self {m : Machine} {name : String} {b : Binding}
    (found : m.find? name = some b) (v : Value) :
    (m.store name v).find? name = some { b with value := v } := by
  rw [find?] at found
  rw [find?, store, find?_replace_self, found, Option.map_some]

theorem find?_store_of_ne {name other : String} (differs : other ≠ name) (m : Machine)
    (v : Value) : (m.store name v).find? other = m.find? other :=
  find?_replace_of_ne differs v m.scope

end Machine

namespace Value

theorem setEntry_setEntry (entries : Entries) (key : String) (v w : Value) :
    setEntry (setEntry entries key v) key w = setEntry entries key w := by
  induction entries with
  | nil => simp [setEntry]
  | cons e rest ih =>
    obtain ⟨k, old⟩ := e
    by_cases same : key = k
    · simp [setEntry, same]
    · by_cases earlier : key < k
      · simp [setEntry, same, earlier]
      · simp [setEntry, same, earlier, ih]

end Value

namespace Interpreter

open Run

variable {go : Go} {s : Surroundings} {m : Machine}

theorem assignAt_map {entries : Value.Entries} {key : String} {operator : Option String}
    {new w : Value}
    (ok : assigned operator ((Value.entry? entries key).getD .unit) new = .ok w) :
    assignAt (.map entries) (.str key) operator new =
      (.ok (), .map (Value.setEntry entries key w)) := by
  cases held : Value.entry? entries key with
  | some old =>
    rw [held, Option.getD_some] at ok
    simp [assignAt, held, ok]
  | none =>
    rw [held, Option.getD_none] at ok
    have made := Value.entry?_setEntry_self entries key .unit
    simp [assignAt, held, made, ok, Value.setEntry_setEntry]

/-- A step that leads to a key of a map. -/
inductive Leads (key : String) : Step → Prop
  | property : Leads key (.property false key)
  | index : Leads key (.index false (.str key))

/-- An assignment to a key of a map. -/
theorem walk_key {entries : Value.Entries} {key : String} {step : Step}
    {operator : Option String} {new w : Value} (leads : Leads key step)
    (ok : assigned operator ((Value.entry? entries key).getD .unit) new = .ok w) :
    outcome (walk go s (some (operator, new)) [step] (.map entries)) m =
      (.ok (.ok .unit, .map (Value.setEntry entries key w)), m) := by
  cases leads with
  | property => simp [walk, assignAt_map ok]
  | index => simp [walk, assignAt_map ok]

/-- An assignment to a key of a map that another map holds. -/
theorem walk_inner_key {entries inner : Value.Entries} {key sub : String} {step next : Step}
    {new : Value} (leads : Leads key step) (held : Value.entry? entries key = some (.map inner))
    (onward : Leads sub next) :
    outcome (walk go s (some (none, new)) [step, next] (.map entries)) m =
      (.ok (.ok .unit,
        .map (Value.setEntry entries key (.map (Value.setEntry inner sub new)))), m) := by
  have last : outcome (walk go s (some (none, new)) [next] (.map inner)) m =
      (.ok (.ok .unit, .map (Value.setEntry inner sub new)), m) := walk_key onward rfl
  cases leads with
  | property =>
    rw [walk]
    · simp [itemAt, held, putAt, outcome_map, last, Except.map]
    · nofun
  | index =>
    rw [walk]
    · simp [itemAt, held, putAt, outcome_map, last, Except.map]
    · nofun

/-- An assignment in a variable changes the variable alone. -/
theorem evalChain_assign {name : String} {links : List Link} {steps : List Step}
    {target : Option String × Value} {b : Binding} {r : Except Signal Value} {v : Value}
    (prepared : outcome (prepare go s links) m = (.ok steps, m)) (found : m.find? name = some b)
    (assignable : b.constant = false)
    (walked : outcome (walk go s (some target) steps b.value) m = (.ok (r, v), m)) :
    outcome (evalChain go s (.var name) links (some target)) m =
      (r, m.store name v) := by
  rw [evalChain, outcome_bind_ok prepared]
  simp [outcome_bind, found, assignable, walked, Machine.store]

/-- A statement that assigns a place in a variable. -/
theorem execStmt_assign {name : String} {links : List Link} {steps : List Step} {e : Expr}
    {operator : Option String} {new : Value} {b : Binding} {v : Value}
    (given : outcome (go (.expr s e)) m = (.ok new, m))
    (prepared : outcome (prepare go s links) m = (.ok steps, m)) (found : m.find? name = some b)
    (assignable : b.constant = false)
    (walked : outcome (walk go s (some (operator, new)) steps b.value) m =
      (.ok (.ok .unit, v), m)) :
    outcome (execStmt go s (.assign operator (.chain (.var name) links) e)) m =
      (.ok .unit, m.store name v) := by
  have chained := evalChain_assign prepared found assignable walked
  simp only [execStmt, outcome_bind_ok given]
  rw [outcome_bind_ok chained]
  rfl

/-- A few phrases inside each other are far from the limit. -/
theorem nestingLimit_eq_add {k : Nat} (few : k ≤ 1000) : ∃ n, nestingLimit = n + k := by
  have limit : nestingLimit = 1099511627776 := by decide
  exact ⟨nestingLimit - k, by omega⟩

theorem run_stmt (n : Nat) (s : Surroundings) (st : Stmt) :
    run (n + 1) (.stmt s st) = execStmt (run n) s st := rfl

end Interpreter

theorem mem_of_mem_dropPure {needed : Bool} {body : List Stmt} {st : Stmt}
    (member : st ∈ dropPure needed body) : st ∈ body := by
  fun_induction dropPure needed body with
  | case1 => exact member
  | case2 => cases member
  | case3 => exact member
  | case4 first rest _ _ ih => exact List.mem_cons_of_mem _ (ih member)
  | case5 first rest _ _ ih =>
    rcases List.mem_cons.mp member with rfl | later
    · exact List.mem_cons_self
    · exact List.mem_cons_of_mem _ (ih later)

theorem dropPure_eq {needed : Bool} {body : List Stmt} (busy : ∀ st ∈ body, st.isPure = false) :
    dropPure needed body = body := by
  fun_induction dropPure needed body with
  | case1 => rfl
  | case2 st unneeded =>
    rw [busy st List.mem_cons_self] at unneeded
    cases unneeded
  | case3 => rfl
  | case4 st rest _ idle ih =>
    rw [busy st List.mem_cons_self] at idle
    cases idle
  | case5 st rest _ _ ih => rw [ih fun other later => busy other (List.mem_cons_of_mem _ later)]

open Run

/-- What is looked at of a variable in the end is the JSON form of its content. -/
theorem finishOf_binding {m : Machine} {name : String} {b : Binding} (r : Except Signal Value)
    (found : m.find? name = some b) :
    (finishOf r m).binding name = some (m.content b.value).toJson? := by
  simp [finishOf, found]

/-- A script that can be read runs its statements on the bindings. -/
theorem script_eq (modules : Modules) (scripts : String → Option String) (seed : Nat)
    {code : String} {program : Program} (read : Program.ofText code = .ok program)
    {bindings : Bindings} {r : Except Signal Value} {m : Machine}
    (ran : outcome (Interpreter.runBody (Interpreter.run Interpreter.nestingLimit)
      { functions := program.simplify.functions, modules := modules, scripts := scripts }
      program.simplify.body) (Machine.ofBindings bindings seed) = (r, m)) :
    (engine modules scripts seed).script code bindings = finishOf r m := by
  simp only [engine, read]
  exact congrArg (fun x => finishOf x.1 x.2) ran

end RuleService.Snippet
