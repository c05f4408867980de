import RuleService.Proofs.Outcome
import RuleService.Template.Expansion

namespace RuleService

/-- The first field of an object that names a command, with its body. -/
def Fields.command? (fields : Fields) : Option (String × Json) :=
  fields.find? fun field => Template.isCommandName field.1

/-- What stands in a list for the values of its parts: null for what is omitted. -/
def slots (outs : List (Option Json)) : List Json := outs.map (·.getD .null)

/-- The fields of an object with the values of their parts, without those that are omitted. -/
def kept (fields : Fields) (outs : List (Option Json)) : Fields :=
  (fields.zip outs).filterMap fun (field, out) => out.map fun v => (field.1, v)

/-- Expands values in turn, each in its own context. -/
def interpolateAll (h : Host) (parts : List (Context × Json)) : Effect (List (Option Json)) :=
  parts.mapM fun part => interpolate h part.1 part.2

namespace Template

theorem firstCommand?_eq (commands : Commands) (fields : Fields) :
    firstCommand? commands fields = fields.command?.map (ofCommand commands) := by
  induction fields with
  | nil => rfl
  | cons field rest ih =>
    by_cases hc : isCommandName field.1 = true
    · simp [firstCommand?, Fields.command?, hc]
    · have tail : Fields.command? (field :: rest) = Fields.command? rest := by
        simp [Fields.command?, hc]
      rw [tail, ← ih]
      simp [firstCommand?, hc]

theorem field?_eq (commands : Commands) (key : String) (fields : Fields) :
    field? commands key fields = (fields.get? key).map (ofJson commands) := by
  induction fields with
  | nil => rfl
  | cons field rest ih =>
    obtain ⟨k, v⟩ := field
    by_cases hk : k = key
    · simp [field?, Named.get?, hk]
    · have hk' : (key == k) = false := by simp [Ne.symm hk]
      simpa [field?, Named.get?, List.lookup_cons, hk, hk'] using ih

theorem collect_eq {α : Type} (f : α → Effect (Option Json)) (acc : List Json) (as : List α) :
    collect f acc as = (fun outs => acc.reverse ++ slots outs) <$> as.mapM f := by
  induction as generalizing acc with
  | nil => simp [collect, slots]
  | cons a as ih => simp [collect, slots, ih]

end Template

attribute [local simp] Template.ofJson Template.expand

variable {h : Host} {ctx : Context}

theorem interpolateAll_cons (part : Context × Json) (parts : List (Context × Json)) :
    interpolateAll h (part :: parts) =
      interpolate h part.1 part.2 >>= fun out => (out :: ·) <$> interpolateAll h parts := by
  simp [interpolateAll]

private theorem expandItems_eq (vs : List Json) :
    Template.expandItems h ctx (Template.ofItems h.commands vs) =
      slots <$> interpolateAll h (vs.map fun v => (ctx, v)) := by
  induction vs with
  | nil => simp [Template.ofItems, Template.expandItems, interpolateAll, slots]
  | cons v vs ih =>
    simp only [Template.ofItems, Template.expandItems, ih]
    simp [interpolateAll, slots, interpolate]

private theorem expandFields_eq (fields : Fields) :
    Template.expandFields h ctx (Template.ofFields h.commands fields) =
      kept fields <$> interpolateAll h (fields.map fun field => (ctx, field.2)) := by
  induction fields with
  | nil => simp [Template.ofFields, Template.expandFields, interpolateAll, kept]
  | cons field rest ih =>
    obtain ⟨key, v⟩ := field
    simp only [Template.ofFields, Template.expandFields, ih]
    simp only [interpolateAll, interpolate, List.map_cons, List.mapM_cons, map_bind, bind_map_left,
      map_pure]
    refine bind_congr fun out => bind_congr fun outs => ?_
    cases out <;> rfl

theorem interpolate_str (text : String) :
    interpolate h ctx (.str text) = some <$> expand h.engine ctx text := by
  simp [interpolate, expand]

theorem interpolate_arr (vs : List Json) :
    interpolate h ctx (.arr vs) =
      (fun outs => some (.arr (slots outs))) <$> interpolateAll h (vs.map fun v => (ctx, v)) := by
  simp [interpolate, expandItems_eq]

theorem interpolate_obj {fields : Fields} (plain : fields.command? = none) :
    interpolate h ctx (.obj fields) =
      (fun outs => some (.obj (kept fields outs))) <$>
        interpolateAll h (fields.map fun field => (ctx, field.2)) := by
  simp [interpolate, Template.firstCommand?_eq, plain, expandFields_eq]

section Commands

variable {fields desc : Fields} {name : String} {body : Json}

theorem interpolate_command (found : Fields.command? fields = some (name, body)) :
    interpolate h ctx (.obj fields) =
      (Template.ofCommand h.commands (name, body)).expand h ctx := by
  simp [interpolate, Template.firstCommand?_eq, found]

theorem interpolate_unknown (found : Fields.command? fields = some (name, body))
    (unknown : h.commands.lookup name = none) :
    interpolate h ctx (.obj fields) = pure (some (.obj [(name, body)])) := by
  rw [interpolate_command found, Template.ofCommand, unknown]
  simp only [Template.expand]

theorem interpolate_custom {handler : Handler} (found : Fields.command? fields = some (name, body))
    (known : h.commands.lookup name = some (.custom handler)) :
    interpolate h ctx (.obj fields) = handler body (interpolate h ctx body) := by
  rw [interpolate_command found, Template.ofCommand, known]
  simp only [Template.expand]
  rfl

theorem interpolate_exec {script : Script} (found : Fields.command? fields = some (name, body))
    (known : h.commands.lookup name = some .exec) (read : Script.ofJson? body = some script) :
    interpolate h ctx (.obj fields) = (fun _ => none) <$> script.execute h.engine ctx := by
  rw [interpolate_command found, Template.ofCommand, known]
  simp only [Template.ofExec, read, Template.expand]
  rfl

theorem interpolate_if {condition yes : Json}
    (found : Fields.command? fields = some (name, .obj desc))
    (known : h.commands.lookup name = some .choice)
    (hc : Named.get? desc "condition" = some condition)
    (hy : Named.get? desc "then" = some yes) :
    interpolate h ctx (.obj fields) =
      (Condition.ofJson condition).value h.engine ctx >>= fun v =>
        match Named.get? desc (if v.isTruthy then "then" else "else") with
        | some branch => interpolate h ctx branch
        | none => pure none := by
  rw [interpolate_command found, Template.ofCommand, known]
  simp only [Template.ofIf, Template.field?_eq, hc, hy, Option.map_some, Template.expand,
    interpolate]
  refine bind_congr fun v => ?_
  cases v.isTruthy with
  | true => simp [hy]
  | false => cases he : Named.get? desc "else" <;> simp [he]

theorem interpolate_array {count element : Json}
    (found : Fields.command? fields = some (name, .obj desc))
    (known : h.commands.lookup name = some .array)
    (hc : Named.get? desc "count" = some count)
    (he : Named.get? desc "element" = some element) :
    interpolate h ctx (.obj fields) =
      (Count.ofJson count).resolve h.engine ctx >>= fun n =>
        (fun outs => some (.arr (slots outs))) <$> interpolateAll h
          ((List.range n).map fun (i : Nat) => (ctx.bind "i" (.int i), element)) := by
  rw [interpolate_command found, Template.ofCommand, known]
  simp only [Template.ofArray, Template.field?_eq, hc, he, Option.map_some, Template.expand,
    Template.collect_eq]
  simp [interpolateAll, interpolate, Function.comp_def]

theorem interpolate_csv {file : String} {element : Json}
    (found : Fields.command? fields = some (name, .obj desc))
    (known : h.commands.lookup name = some .csv)
    (hf : Named.get? desc "file" = some (.str file))
    (he : Named.get? desc "element" = some element) :
    interpolate h ctx (.obj fields) =
      expand h.engine ctx file >>= fun path => h.readFile path.display >>= fun content =>
        (fun outs => some (.arr (slots outs))) <$> interpolateAll h
          (((RowLayout.ofFields desc).items content).map fun row =>
            (ctx.bindAll row, element)) := by
  rw [interpolate_command found, Template.ofCommand, known]
  simp only [Template.ofCsv, Template.field?_eq, hf, he, Option.map_some, Template.expand,
    Template.collect_eq]
  simp [interpolateAll, interpolate, expand, Function.comp_def]

theorem interpolate_faulty {f : Failure} (found : Fields.command? fields = some (name, body))
    (faulty : Template.ofCommand h.commands (name, body) = .faulty f) :
    interpolate h ctx (.obj fields) = throw f := by
  rw [interpolate_command found, faulty]
  simp only [Template.expand]

end Commands

section Bodies

variable {commands : Commands} {name : String}

theorem exec_or_faulty (known : commands.lookup name = some .exec) (body : Json) :
    (∃ script, Script.ofJson? body = some script) ∨
    ∃ message, Template.ofCommand commands (name, body) = .faulty (.malformed "$exec" message) := by
  simp only [Template.ofCommand, known, Template.ofExec]
  cases Script.ofJson? body with
  | none => exact .inr ⟨_, rfl⟩
  | some script => exact .inl ⟨script, rfl⟩

theorem if_or_faulty (known : commands.lookup name = some .choice) (body : Json) :
    (∃ desc condition yes, body = .obj desc ∧ Named.get? desc "condition" = some condition ∧
      Named.get? desc "then" = some yes) ∨
    ∃ message, Template.ofCommand commands (name, body) = .faulty (.malformed "$if" message) := by
  simp only [Template.ofCommand, known]
  cases body with
  | obj desc =>
    simp only [Template.ofIf, Template.field?_eq]
    cases hc : Named.get? desc "condition" with
    | none => exact .inr ⟨_, rfl⟩
    | some condition =>
      cases hy : Named.get? desc "then" with
      | none => exact .inr ⟨_, rfl⟩
      | some yes => exact .inl ⟨desc, condition, yes, rfl, hc, hy⟩
  | _ =>
    refine .inr ⟨"expected an object descriptor", ?_⟩
    simp only [Template.ofIf, Template.notAnObject]

theorem array_or_faulty (known : commands.lookup name = some .array) (body : Json) :
    (∃ desc count element, body = .obj desc ∧ Named.get? desc "count" = some count ∧
      Named.get? desc "element" = some element) ∨
    ∃ message,
      Template.ofCommand commands (name, body) = .faulty (.malformed "$array" message) := by
  simp only [Template.ofCommand, known]
  cases body with
  | obj desc =>
    simp only [Template.ofArray, Template.field?_eq]
    cases hc : Named.get? desc "count" with
    | none => exact .inr ⟨_, rfl⟩
    | some count =>
      cases he : Named.get? desc "element" with
      | none => exact .inr ⟨_, rfl⟩
      | some element => exact .inl ⟨desc, count, element, rfl, hc, he⟩
  | _ =>
    refine .inr ⟨"expected an object descriptor", ?_⟩
    simp only [Template.ofArray, Template.notAnObject]

theorem csv_or_faulty (known : commands.lookup name = some .csv) (body : Json) :
    (∃ desc file element, body = .obj desc ∧ Named.get? desc "file" = some (.str file) ∧
      Named.get? desc "element" = some element) ∨
    ∃ message, Template.ofCommand commands (name, body) = .faulty (.malformed "$csv" message) := by
  simp only [Template.ofCommand, known]
  cases body with
  | obj desc =>
    simp only [Template.ofCsv, Template.field?_eq]
    cases hf : Named.get? desc "file" with
    | none => exact .inr ⟨_, rfl⟩
    | some file =>
      cases he : Named.get? desc "element" with
      | none => exact .inr ⟨_, rfl⟩
      | some element =>
        cases file with
        | str file => exact .inl ⟨desc, file, element, rfl, hf, he⟩
        | _ => exact .inr ⟨"\x60file\x60 must be a string", by simp only [Option.map_some]⟩
  | _ =>
    refine .inr ⟨"expected an object descriptor", ?_⟩
    simp only [Template.ofCsv, Template.notAnObject]

end Bodies

/-- The built-in commands by their names. -/
theorem Commands.builtIn_cases {name : String} {command : Command}
    (found : builtIn.lookup name = some command) :
    (name = "$array" ∧ command = .array) ∨ (name = "$csv" ∧ command = .csv) ∨
      (name = "$exec" ∧ command = .exec) ∨ (name = "$if" ∧ command = .choice) := by
  obtain ⟨before, after, split, -⟩ := List.lookup_eq_some_iff.mp found
  have listed : (name, command) ∈ builtIn := by simp [split]
  simpa [builtIn] using listed

end RuleService
