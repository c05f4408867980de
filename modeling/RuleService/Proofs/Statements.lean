import RuleService.Proofs.Breakdown
import RuleService.Proofs.Commit
import RuleService.Proofs.Loading

namespace RuleService

open Effect

/-- What one statement comes to. The engine is given the bag, the request, the response and the locals as
they are and nothing of another statement, and what it ends with is committed. -/
def statementOutcome (engine : Engine) (ctx : Context) (code : String) (s : State) :
    Except Failure Unit × State :=
  let (t, r) := settle code (s.record (.executed code ctx.locals))
    (engine.script code (bindingsFor ctx s))
  (r.map fun _ => (), t)

/-- The texts among these items succeed as statements, each over what the one before left. -/
inductive Succeeds (engine : Engine) (ctx : Context) : List Json → State → State → Prop
  | nil (s : State) : Succeeds engine ctx [] s s
  | skip {v : Json} {items : List Json} {s t : State} (noText : ∀ code, v ≠ .str code)
      (rest : Succeeds engine ctx items s t) : Succeeds engine ctx (v :: items) s t
  | step {code : String} {items : List Json} {s t u : State}
      (first : statementOutcome engine ctx code s = (.ok (), t))
      (rest : Succeeds engine ctx items t u) : Succeeds engine ctx (.str code :: items) s u

/-- The first of the texts among these items that fails as a statement, after those before it. -/
inductive Fails (engine : Engine) (ctx : Context) (items : List Json) (s : State) (f : Failure)
    (t : State) : Prop
  | intro {before after : List Json} {code : String} {u : State}
      (split : items = before ++ .str code :: after) (succeed : Succeeds engine ctx before s u)
      (fails : statementOutcome engine ctx code u = (.error f, t))

/-- A list with items put in, anywhere and any number, that are no texts. -/
inductive Padded : List Json → List Json → Prop
  | nil : Padded [] []
  | keep (v : Json) {items padded : List Json} (rest : Padded items padded) :
      Padded (v :: items) (v :: padded)
  | put {v : Json} {items padded : List Json} (noText : ∀ code, v ≠ .str code)
      (rest : Padded items padded) : Padded items (v :: padded)

/-- The items of the script that a value is: a statement, or a list. -/
inductive Json.Lists : Json → List Json → Prop
  | statement (code : String) : Lists (.str code) [.str code]
  | list (items : List Json) : Lists (.arr items) items

variable {engine : Engine} {ctx : Context} {items : List Json} {code : String} {s t : State}
  {f : Failure} {v : Json}

theorem outcome_execute (engine : Engine) (ctx : Context) (code : String) (s : State) :
    (execute engine ctx code).outcome s = statementOutcome engine ctx code s := by
  have given : bindingsFor ctx (s.record (.executed code ctx.locals)) = bindingsFor ctx s := rfl
  rw [execute, outcome_bind, outcome_record]
  simp only [outcome_bind, outcome_runSnippet, given, statementOutcome]
  cases (settle code _ _).2 <;> rfl

/-- Of the state, a statement sees the bag and the response alone. -/
theorem statementOutcome_journal (engine : Engine) (ctx : Context) (code : String) (s : State)
    (journal : List Event) :
    (statementOutcome engine ctx code { s with journal }).1 =
        (statementOutcome engine ctx code s).1 ∧
      (statementOutcome engine ctx code { s with journal }).2.data =
        (statementOutcome engine ctx code s).2.data ∧
      (statementOutcome engine ctx code { s with journal }).2.response =
        (statementOutcome engine ctx code s).2.response := by
  let finish := engine.script code (bindingsFor ctx s)
  have given : bindingsFor ctx { s with journal } = bindingsFor ctx s := rfl
  simp only [statementOutcome, given, settle, commit, State.record]
  cases committedData code s.data (finish.binding "data") with
  | error f => exact ⟨rfl, rfl, rfl⟩
  | ok bag => cases committedResponse code finish.binding s.response handles <;> exact ⟨rfl, rfl, rfl⟩

theorem Json.str?_eq_none (noText : ∀ code, v ≠ .str code) : v.str? = none := by
  cases v with
  | str code => exact absurd rfl (noText code)
  | _ => rfl

namespace Script

theorem execute_nil (engine : Engine) (ctx : Context) :
    Script.execute engine ctx ⟨[]⟩ = pure () := rfl

theorem execute_skip (noText : ∀ code, v ≠ .str code) (items : List Json) :
    Script.execute engine ctx ⟨v :: items⟩ = Script.execute engine ctx ⟨items⟩ := by
  simp [Script.execute, statements, Json.str?_eq_none noText]

theorem outcome_execute_text (engine : Engine) (ctx : Context) (code : String) (items : List Json)
    (s : State) :
    (Script.execute engine ctx ⟨.str code :: items⟩).outcome s =
      match statementOutcome engine ctx code s with
      | (.ok _, t) => (Script.execute engine ctx ⟨items⟩).outcome t
      | (.error f, t) => (.error f, t) := by
  have first : Script.execute engine ctx ⟨.str code :: items⟩ =
      RuleService.execute engine ctx code >>= fun _ => Script.execute engine ctx ⟨items⟩ := rfl
  rw [first, outcome_bind, RuleService.outcome_execute]
  rcases statementOutcome engine ctx code s with ⟨r, t⟩
  cases r <;> rfl

/-- One list after the other is one script: the second runs if the first succeeds. -/
theorem execute_append (engine : Engine) (ctx : Context) (xs ys : List Json) :
    Script.execute engine ctx ⟨xs ++ ys⟩ =
      Script.execute engine ctx ⟨xs⟩ >>= fun _ => Script.execute engine ctx ⟨ys⟩ := by
  simp only [Script.execute, statements, List.filterMap_append, List.forM_eq_forM, List.forM_append]

theorem execute_padded {padded : List Json} (pads : Padded items padded) :
    Script.execute engine ctx ⟨padded⟩ = Script.execute engine ctx ⟨items⟩ := by
  induction pads with
  | nil => rfl
  | @keep v items padded _ ih =>
    rw [← List.singleton_append, execute_append, ih, ← execute_append, List.singleton_append]
  | put noText _ ih => rw [execute_skip noText, ih]

theorem execute_ok_iff :
    (Script.execute engine ctx ⟨items⟩).outcome s = (.ok (), t) ↔ Succeeds engine ctx items s t := by
  constructor
  · intro done
    induction items generalizing s with
    | nil =>
      rw [execute_nil, outcome_pure] at done
      obtain rfl : s = t := congrArg Prod.snd done
      exact .nil s
    | cons v items ih =>
      by_cases text : ∃ code, v = .str code
      · obtain ⟨code, rfl⟩ := text
        rw [outcome_execute_text] at done
        rcases first : statementOutcome engine ctx code s with ⟨r, u⟩
        rw [first] at done
        cases r with
        | error f => cases done
        | ok => exact .step first (ih done)
      · have noText : ∀ code, v ≠ .str code := fun code eq => text ⟨code, eq⟩
        rw [execute_skip noText] at done
        exact .skip noText (ih done)
  · intro succeeds
    induction succeeds with
    | nil s => rfl
    | skip noText _ ih => rw [execute_skip noText, ih]
    | step first _ ih =>
      rw [outcome_execute_text, first]
      exact ih

/-- After statements that succeed, the rest of a script runs on what they left. -/
theorem outcome_execute_after {before : List Json} (succeeds : Succeeds engine ctx before s t)
    (after : List Json) :
    (Script.execute engine ctx ⟨before ++ after⟩).outcome s =
      (Script.execute engine ctx ⟨after⟩).outcome t := by
  rw [execute_append, outcome_bind, execute_ok_iff.mpr succeeds]

theorem execute_error_iff :
    (Script.execute engine ctx ⟨items⟩).outcome s = (.error f, t) ↔ Fails engine ctx items s f t := by
  constructor
  · intro failed
    induction items generalizing s with
    | nil => cases failed
    | cons v items ih =>
      by_cases text : ∃ code, v = .str code
      · obtain ⟨code, rfl⟩ := text
        rw [outcome_execute_text] at failed
        rcases first : statementOutcome engine ctx code s with ⟨r, u⟩
        rw [first] at failed
        cases r with
        | error g =>
          obtain ⟨rfl, rfl⟩ : g = f ∧ u = t := by simpa using failed
          exact ⟨(List.nil_append _).symm, .nil s, first⟩
        | ok =>
          obtain ⟨rfl, succeed, fails⟩ := ih failed
          exact ⟨(List.cons_append ..).symm, .step first succeed, fails⟩
      · have noText : ∀ code, v ≠ .str code := fun code eq => text ⟨code, eq⟩
        rw [execute_skip noText] at failed
        obtain ⟨rfl, succeed, fails⟩ := ih failed
        exact ⟨(List.cons_append ..).symm, .skip noText succeed, fails⟩
  · rintro ⟨rfl, succeed, fails⟩
    rw [outcome_execute_after succeed, outcome_execute_text, fails]

end Script

theorem snippets_statementOutcome (engine : Engine) (ctx : Context) (code : String) (s : State) :
    (statementOutcome engine ctx code s).2.snippets = s.snippets ++ [code] := by
  rw [← outcome_execute]
  exact snippets_execute ..

/-- All texts run, in order. -/
theorem Succeeds.snippets (succeeds : Succeeds engine ctx items s t) :
    t.snippets = s.snippets ++ items.filterMap Json.str? := by
  induction succeeds with
  | nil s => exact (List.append_nil _).symm
  | skip noText _ ih => rw [ih, List.filterMap_cons_none (Json.str?_eq_none noText)]
  | @step code items s t u first _ ih =>
    have ran := snippets_statementOutcome engine ctx code s
    rw [first] at ran
    rw [ih, ran, List.append_assoc, List.filterMap_cons_some (rfl : (Json.str code).str? = some code)]
    rfl

/-- The texts run in order up to the one that fails. -/
theorem Fails.snippets (fails : Fails engine ctx items s f t) :
    ∃ ran left, items.filterMap Json.str? = ran ++ left ∧ t.snippets = s.snippets ++ ran := by
  obtain @⟨before, after, code, u, rfl, succeed, failed⟩ := fails
  have ran := snippets_statementOutcome engine ctx code u
  rw [failed, succeed.snippets, List.append_assoc] at ran
  exact ⟨before.filterMap Json.str? ++ [code], after.filterMap Json.str?, by simp [Json.str?], ran⟩

namespace Script

theorem ofJson?_iff : Script.ofJson? v = some ⟨items⟩ ↔ v.Lists items := by
  constructor
  · intro read
    cases v with
    | str code =>
      cases read
      exact .statement code
    | arr items =>
      cases read
      exact .list items
    | _ => cases read
  · rintro (_ | _) <;> rfl

theorem ofJson?_none_iff : Script.ofJson? v = none ↔ ∀ items, ¬ v.Lists items := by
  simp only [← ofJson?_iff]
  constructor
  · intro none items read
    cases none.symm.trans read
  · intro refused
    cases read : Script.ofJson? v with
    | none => rfl
    | some script => exact absurd read (refused script.items)

end Script

theorem interpolate_exec_refused {h : Host} {fields : Fields} {body : Json}
    (known : h.commands.lookup "$exec" = some .exec)
    (found : Fields.command? fields = some ("$exec", body)) (refused : ∀ items, ¬ body.Lists items) :
    interpolate h ctx (.obj fields) =
      throw (.malformed "$exec" "expected a statement or a list of statements") := by
  refine interpolate_faulty found ?_
  simp only [Template.ofCommand, known, Template.ofExec, Script.ofJson?_none_iff.mpr refused]

namespace Rule

variable {h : Host} {rule : Rule} {definition : Fields}

/-- A rule without what runs before it is expanded. -/
def fromExpansion (rule : Rule) : Rule := { rule with before := none }

theorem run_before {script : Script} (given : rule.before = some script) :
    rule.run h ctx = script.execute h.engine ctx >>= fun _ => rule.fromExpansion.run h ctx := by
  simp only [run, given, fromExpansion, template, runScript, pure_bind]

theorem run_after {script : Script} (given : rule.after = some script) :
    rule.run h ctx = rule.untilEnding.run h ctx >>= fun _ => script.execute h.engine ctx := by
  simp only [run, given, untilEnding, template, runScript, bind_assoc]
  simp

theorem script_of_ofJson (read : Rule.ofJson (.obj definition) = .ok rule) :
    HoldsScript (Named.get? definition "preScript") rule.before ∧
      HoldsScript (Named.get? definition "postScript") rule.after := by
  obtain ⟨same, -, before, after, -⟩ := ofJson_ok_iff.mp read
  obtain rfl := Json.obj.inj same
  exact ⟨before, after⟩

end Rule

theorem HoldsScript.lists {script : Option Script} (holds : HoldsScript (some v) script)
    (lists : v.Lists items) : script = some ⟨items⟩ := by
  cases lists <;> cases holds <;> rfl

theorem HoldsScript.absent_of_null {script : Option Script} (holds : HoldsScript (some .null) script) :
    script = none := by
  cases holds
  rfl

theorem HoldsScript.null_or_lists {script : Option Script} (holds : HoldsScript (some v) script) :
    v = .null ∨ ∃ items, v.Lists items := by
  cases holds with
  | null => exact .inl rfl
  | statement code => exact .inr ⟨_, .statement code⟩
  | list items => exact .inr ⟨_, .list items⟩

/-- What it is for some items to be a sequence of statements. -/
structure RunsInOrder (engine : Engine) (ctx : Context) (items : List Json) : Prop where
  succeeds_iff : ∀ s t, (Script.execute engine ctx ⟨items⟩).outcome s = (.ok (), t) ↔
    Succeeds engine ctx items s t
  fails_iff : ∀ s f t, (Script.execute engine ctx ⟨items⟩).outcome s = (.error f, t) ↔
    Fails engine ctx items s f t
  /-- What ran before a statement reaches it through the bag and the response alone. -/
  fresh : ∀ code s journal,
    (statementOutcome engine ctx code { s with journal }).1 =
        (statementOutcome engine ctx code s).1 ∧
      (statementOutcome engine ctx code { s with journal }).2.data =
        (statementOutcome engine ctx code s).2.data ∧
      (statementOutcome engine ctx code { s with journal }).2.response =
        (statementOutcome engine ctx code s).2.response
  ran : ∀ s t, Succeeds engine ctx items s t →
    t.snippets = s.snippets ++ items.filterMap Json.str?
  ranUpTo : ∀ s f t, Fails engine ctx items s f t →
    ∃ ran left, items.filterMap Json.str? = ran ++ left ∧ t.snippets = s.snippets ++ ran
  padded : ∀ padded, Padded items padded → ∀ s,
    (Script.execute engine ctx ⟨padded⟩).outcome s = (Script.execute engine ctx ⟨items⟩).outcome s
  append : ∀ more s, (Script.execute engine ctx ⟨items ++ more⟩).outcome s =
    match (Script.execute engine ctx ⟨items⟩).outcome s with
    | (.ok _, t) => (Script.execute engine ctx ⟨more⟩).outcome t
    | (.error f, t) => (.error f, t)

/-- What it is for a value to be run as the script of some items, wherever it stands. -/
structure RunsAs (h : Host) (ctx : Context) (v : Json) (items : List Json) : Prop where
  before : ∀ definition rule, Named.get? definition "preScript" = some v →
    Rule.ofJson (.obj definition) = .ok rule →
    rule.run h ctx =
      Script.execute h.engine ctx ⟨items⟩ >>= fun _ => rule.fromExpansion.run h ctx
  after : ∀ definition rule, Named.get? definition "postScript" = some v →
    Rule.ofJson (.obj definition) = .ok rule →
    rule.run h ctx =
      rule.untilEnding.run h ctx >>= fun _ => Script.execute h.engine ctx ⟨items⟩
  exec : ∀ fields, Fields.command? fields = some ("$exec", v) →
    interpolate h ctx (.obj fields) =
      (fun _ => none) <$> Script.execute h.engine ctx ⟨items⟩

/-- What it is for a value to be refused as a script: a rule with it is not loaded, and a template with it
fails before it does anything. Null in a rule stands for no script. -/
structure RefusedAsScript (h : Host) (ctx : Context) (v : Json) : Prop where
  rule : v ≠ .null → ∀ definition, ∀ name ∈ ["preScript", "postScript"],
    Named.get? definition name = some v → ∀ rule, Rule.ofJson (.obj definition) ≠ .ok rule
  null : v = .null → ∀ definition rule, Rule.ofJson (.obj definition) = .ok rule →
    (Named.get? definition "preScript" = some v → rule.before = none) ∧
      (Named.get? definition "postScript" = some v → rule.after = none)
  exec : ∀ fields, Fields.command? fields = some ("$exec", v) → ∀ s,
    (interpolate h ctx (.obj fields)).outcome s =
      (.error (.malformed "$exec" "expected a statement or a list of statements"), s)

/-- The texts among the items of a script run as statements, in order and up to the first that fails; the
other items and how the items are grouped make no difference. The scripts of a rule and those of a template
are such sequences, and all other values are refused. -/
theorem Script.execute_in_order (h : Host) (ctx : Context)
    (stock : h.commands.lookup "$exec" = some .exec) :
    (∀ items, RunsInOrder h.engine ctx items) ∧
    (∀ v items, v.Lists items → RunsAs h ctx v items) ∧
    ∀ v, (∀ items, ¬ v.Lists items) → RefusedAsScript h ctx v := by
  refine ⟨fun items => ?_, fun v items lists => ?_, fun v refused => ?_⟩
  · refine ⟨fun s t => Script.execute_ok_iff, fun s f t => Script.execute_error_iff,
      statementOutcome_journal _ _, fun s t => Succeeds.snippets, fun s f t => Fails.snippets,
      fun padded pads s => by rw [Script.execute_padded pads], fun more s => ?_⟩
    rw [Script.execute_append, outcome_bind]
    rcases (Script.execute h.engine ctx ⟨items⟩).outcome s with ⟨r, t⟩
    cases r <;> rfl
  · refine ⟨fun definition rule given read => ?_, fun definition rule given read => ?_,
      fun fields found => interpolate_exec found stock (Script.ofJson?_iff.mpr lists)⟩
    · have holds := (Rule.script_of_ofJson read).1
      rw [given] at holds
      exact Rule.run_before (holds.lists lists)
    · have holds := (Rule.script_of_ofJson read).2
      rw [given] at holds
      exact Rule.run_after (holds.lists lists)
  · refine ⟨fun notNull definition name member given rule read => ?_,
      fun null definition rule read => ?_,
      fun fields found s => by rw [interpolate_exec_refused stock found refused, outcome_throw]⟩
    · have holds : ∃ script, HoldsScript (some v) script := by
        have both := Rule.script_of_ofJson read
        obtain rfl | rfl : name = "preScript" ∨ name = "postScript" := by simpa using member
        · exact ⟨_, given ▸ both.1⟩
        · exact ⟨_, given ▸ both.2⟩
      obtain ⟨script, holds⟩ := holds
      obtain null | ⟨items, lists⟩ := holds.null_or_lists
      · exact notNull null
      · exact refused items lists
    · subst null
      obtain ⟨before, after⟩ := Rule.script_of_ofJson read
      refine ⟨fun given => ?_, fun given => ?_⟩
      · rw [given] at before
        exact before.absent_of_null
      · rw [given] at after
        exact after.absent_of_null

/-- A host whose scripts run, without files. -/
def scripting : Host where
  engine := bareEngine
  file path := .error (.fileNotFound path)

/-- A statement that throws ends a script; what it wrote is kept, and the statement after it does not
run. -/
theorem Script.execute_in_order_thrown :
    let items : List Json :=
      [.int 42, .str "data.a = 1", .null, .str "data.b = data.a; throw 2", .str "data.c = 3"]
    ∃ f t, Fails bareEngine {} items {} f t ∧
      Json.same (.obj t.data) (.obj [("a", .int 1), ("b", .int 1)]) = true ∧
      t.snippets = ["data.a = 1", "data.b = data.a; throw 2"] ∧
      (interpolate scripting {} (.obj [("$exec", .arr items)])).outcome {} = (.error f, t) ∧
      (interpolate scripting {} (.obj [("$exec", .int 42)])).outcome {} =
        (.error (.malformed "$exec" "expected a statement or a list of statements"), {}) := by
  intro items
  have failed : ((Script.execute bareEngine {} ⟨items⟩).outcome {}).1.isOk = false := by
    decide +kernel
  obtain ⟨f, t, outcome⟩ := failed_of_not_isOk failed
  have left : ((Script.execute bareEngine {} ⟨items⟩).outcome {}).2 = t := congrArg Prod.snd outcome
  obtain ⟨inOrder, runs, refused⟩ := Script.execute_in_order scripting {} rfl
  have named (v : Json) : Fields.command? [("$exec", v)] = some ("$exec", v) := by
    simp [Fields.command?, Template.isCommandName]
  have exec := (runs (.arr items) items (.list items)).exec _ (named _)
  refine ⟨f, t, ((inOrder items).fails_iff {} f t).mp outcome, ?_, ?_, ?_, ?_⟩
  · rw [← left]
    decide +kernel
  · rw [← left]
    decide +kernel
  · rw [exec, map_error_iff]
    exact outcome
  · exact (refused (.int 42) (fun items lists => by cases lists)).exec _ (named _) {}

/-- Null before a rule is neither a statement nor a list, and the rule is loaded all the same. -/
theorem Rule.ofJson_null_script :
    ¬ ∀ (v : Json) (definition : Fields), (∀ items, ¬ v.Lists items) →
      Named.get? definition "preScript" = some v →
      ∀ rule, Rule.ofJson (.obj definition) ≠ .ok rule := by
  intro refused
  exact refused .null [("preScript", .null), ("responseText", .str "hi")] nofun rfl _ rfl

end RuleService
