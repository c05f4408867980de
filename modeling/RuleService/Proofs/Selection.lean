import RuleService.Proofs.Journal
import RuleService.Proofs.Repetition

namespace RuleService

open Effect

/-- The fields of its descriptor that a built-in command looks at. -/
def Command.fields? : Command → Option (List String)
  | .array => some ["count", "element"]
  | .csv => some ["file", "element", "delimiter", "firstLineHeader", "headers"]
  | .exec => some []
  | .choice => some ["condition", "then", "else"]
  | .custom _ => none

mutual

/-- Two values that differ only in parts that the expansion from this state does not select. Which these are is
known only as the expansion goes on, so the relation goes through the states that it goes through. -/
inductive SameSelected (h : Host) : Context → State → Json → Json → Prop
  | same {ctx : Context} {s : State} {v : Json} : SameSelected h ctx s v v
  | items {ctx : Context} {s : State} {vs ws : List Json}
      (each : SameSelectedAll h s (vs.map fun v => (ctx, v)) (ws.map fun w => (ctx, w))) :
      SameSelected h ctx s (.arr vs) (.arr ws)
  | fields {ctx : Context} {s : State} {fields fields' : Fields}
      (plain : Fields.command? fields = none) (keys : fields.map Prod.fst = fields'.map Prod.fst)
      (each : SameSelectedAll h s (fields.map fun field => (ctx, field.2))
        (fields'.map fun field => (ctx, field.2))) :
      SameSelected h ctx s (.obj fields) (.obj fields')
  /-- Only the first command of an object counts. -/
  | beside {ctx : Context} {s : State} {fields fields' : Fields} {command : String × Json}
      (found : Fields.command? fields = some command)
      (found' : Fields.command? fields' = some command) :
      SameSelected h ctx s (.obj fields) (.obj fields')
  | command {ctx : Context} {s : State} {fields fields' : Fields} {name : String}
      {command : Command} {body body' : Json} (known : h.commands.lookup name = some command)
      (found : Fields.command? fields = some (name, body))
      (found' : Fields.command? fields' = some (name, body'))
      (bodies : SameSelectedBody h ctx s command body body') :
      SameSelected h ctx s (.obj fields) (.obj fields')

/-- Bodies of a command that differ only in parts that it does not select. -/
inductive SameSelectedBody (h : Host) : Context → State → Command → Json → Json → Prop
  /-- Fields that the command does not know may differ. -/
  | described {ctx : Context} {s : State} {command : Command} {keys : List String}
      {desc desc' : Fields} (looked : command.fields? = some keys)
      (agree : ∀ key ∈ keys, Named.get? desc key = Named.get? desc' key) :
      SameSelectedBody h ctx s command (.obj desc) (.obj desc')
  /-- The branch that is not taken may differ, and `else` may be missing then. -/
  | choice {ctx : Context} {s : State} {desc desc' : Fields} {condition yes yes' : Json}
      (asked : Named.get? desc "condition" = some condition)
      (asked' : Named.get? desc' "condition" = some condition)
      (given : Named.get? desc "then" = some yes) (given' : Named.get? desc' "then" = some yes')
      (present : ∀ v t, ((Condition.ofJson condition).value h.engine ctx).outcome s = (.ok v, t) →
        (Named.get? desc (if v.isTruthy then "then" else "else")).isSome =
          (Named.get? desc' (if v.isTruthy then "then" else "else")).isSome)
      (taken : ∀ v t branch branch',
        ((Condition.ofJson condition).value h.engine ctx).outcome s = (.ok v, t) →
        Named.get? desc (if v.isTruthy then "then" else "else") = some branch →
        Named.get? desc' (if v.isTruthy then "then" else "else") = some branch' →
        SameSelected h ctx t branch branch') :
      SameSelectedBody h ctx s .choice (.obj desc) (.obj desc')
  /-- Without a copy the elements may differ as they like. -/
  | repeated {ctx : Context} {s : State} {desc desc' : Fields} {count element element' : Json}
      (counted : Named.get? desc "count" = some count)
      (counted' : Named.get? desc' "count" = some count)
      (given : Named.get? desc "element" = some element)
      (given' : Named.get? desc' "element" = some element')
      (copies : ∀ n t, ((Count.ofJson count).resolve h.engine ctx).outcome s = (.ok n, t) →
        SameSelectedAll h t ((numbered ctx n).map fun c => (c, element))
          ((numbered ctx n).map fun c => (c, element'))) :
      SameSelectedBody h ctx s .array (.obj desc) (.obj desc')
  /-- Without a row the elements may differ as they like. -/
  | rows {ctx : Context} {s : State} {desc desc' : Fields} {file : String} {element element' : Json}
      (named : Named.get? desc "file" = some (.str file))
      (named' : Named.get? desc' "file" = some (.str file))
      (given : Named.get? desc "element" = some element)
      (given' : Named.get? desc' "element" = some element')
      (layout : RowLayout.ofFields desc = RowLayout.ofFields desc')
      (copies : ∀ path content t, (expand h.engine ctx file).outcome s = (.ok path, t) →
        h.file path.display = .ok content →
        SameSelectedAll h (t.record (.read path.display))
          (((RowLayout.ofFields desc).items content).map fun row => (ctx.bindAll row, element))
          (((RowLayout.ofFields desc).items content).map fun row => (ctx.bindAll row, element'))) :
      SameSelectedBody h ctx s .csv (.obj desc) (.obj desc')
  /-- An added command that sees nothing of its body but the expansion. -/
  | custom {ctx : Context} {s : State} {handler : Handler} {body body' : Json}
      (blind : ∀ inner, handler body inner = handler body' inner)
      (bodies : ∀ t, SameSelected h ctx t body body') :
      SameSelectedBody h ctx s (.custom handler) body body'

/-- Values in turn, each in its own context. The expansion comes to the others only if the first one
gives a result. -/
inductive SameSelectedAll (h : Host) :
    State → List (Context × Json) → List (Context × Json) → Prop
  | nil {s : State} : SameSelectedAll h s [] []
  | cons {ctx : Context} {s : State} {v w : Json} {rest rest' : List (Context × Json)}
      (first : SameSelected h ctx s v w)
      (others : ∀ out t, (interpolate h ctx v).outcome s = (.ok out, t) →
        SameSelectedAll h t rest rest') :
      SameSelectedAll h s ((ctx, v) :: rest) ((ctx, w) :: rest')

end

theorem Fields.command?_none_congr {fields fields' : Fields}
    (keys : fields.map Prod.fst = fields'.map Prod.fst) :
    Fields.command? fields = none ↔ Fields.command? fields' = none := by
  have none_iff (fields : Fields) : Fields.command? fields = none ↔
      ∀ key ∈ fields.map Prod.fst, Template.isCommandName key = false := by
    simp [Fields.command?, List.find?_eq_none]
  rw [none_iff, none_iff, keys]

theorem kept_congr {fields fields' : Fields} (keys : fields.map Prod.fst = fields'.map Prod.fst)
    (outs : List (Option Json)) : kept fields outs = kept fields' outs := by
  have told (fields : Fields) : kept fields outs =
      ((fields.map Prod.fst).zip outs).filterMap fun (key, out) => out.map fun v => (key, v) := by
    rw [kept, List.zip_map_left, List.filterMap_map]
    rfl
  rw [told, told, keys]

theorem ofCommand_congr {commands : Commands} {name : String} {command : Command} {keys : List String}
    {desc desc' : Fields} (known : commands.lookup name = some command)
    (looked : command.fields? = some keys)
    (agree : ∀ key ∈ keys, Named.get? desc key = Named.get? desc' key) :
    Template.ofCommand commands (name, .obj desc) = Template.ofCommand commands (name, .obj desc') := by
  simp only [Template.ofCommand, known]
  cases command with
  | custom => cases looked
  | exec => rfl
  | array | choice =>
    cases looked
    simp only [List.forall_mem_cons] at agree
    simp only [Template.ofArray, Template.ofIf, Template.field?_eq, agree]
  | csv =>
    cases looked
    simp only [List.forall_mem_cons] at agree
    have layout : RowLayout.ofFields desc = RowLayout.ofFields desc' := by
      simp only [RowLayout.ofFields, agree]
    simp only [Template.ofCsv, Template.field?_eq, layout, agree]

/-- Work that is followed by alike work, whenever it gives a result, is alike as a whole. -/
theorem Effect.outcome_bind_congr {α β : Type} {work : Effect α} {next next' : α → Effect β}
    {s : State} (alike : ∀ a t, work.outcome s = (.ok a, t) → (next a).outcome t = (next' a).outcome t) :
    (work >>= next).outcome s = (work >>= next').outcome s := by
  rw [outcome_bind, outcome_bind]
  rcases first : work.outcome s with ⟨_ | a, t⟩
  · rfl
  · exact alike a t first

/-- A branch may be missing, in both or in none. -/
theorem outcome_branch_congr {h : Host} {ctx : Context} {s : State} {branch branch' : Option Json}
    (present : branch.isSome = branch'.isSome)
    (alike : ∀ v w, branch = some v → branch' = some w →
      (interpolate h ctx v).outcome s = (interpolate h ctx w).outcome s) :
    Effect.outcome (match branch with | some v => interpolate h ctx v | none => pure none) s =
      Effect.outcome (match branch' with | some w => interpolate h ctx w | none => pure none) s := by
  cases branch <;> cases branch'
  · rfl
  · cases present
  · cases present
  · exact alike _ _ rfl rfl

mutual

theorem SameSelected.outcome_eq {h : Host} {ctx : Context} {s : State} {v w : Json} :
    SameSelected h ctx s v w →
    (interpolate h ctx v).outcome s = (interpolate h ctx w).outcome s
  | .same => rfl
  | .items each => by rw [interpolate_arr, interpolate_arr, outcome_map, outcome_map, each.outcome_eq]
  | .fields plain keys each => by
    have plain' := (Fields.command?_none_congr keys).mp plain
    rw [interpolate_obj plain, interpolate_obj plain', outcome_map, outcome_map, each.outcome_eq]
    simp only [kept_congr keys]
  | .beside found found' => by rw [interpolate_command found, interpolate_command found']
  | .command known found found' bodies => bodies.outcome_eq known found found'

theorem SameSelectedBody.outcome_eq {h : Host} {ctx : Context} {s : State} {fields fields' : Fields}
    {name : String} {command : Command} {body body' : Json} :
    SameSelectedBody h ctx s command body body' →
    h.commands.lookup name = some command → Fields.command? fields = some (name, body) →
    Fields.command? fields' = some (name, body') →
    (interpolate h ctx (.obj fields)).outcome s = (interpolate h ctx (.obj fields')).outcome s
  | .described looked agree, known, found, found' => by
    rw [interpolate_command found, interpolate_command found', ofCommand_congr known looked agree]
  | .choice asked asked' given given' present taken, known, found, found' => by
    rw [interpolate_if found known asked given, interpolate_if found' known asked' given']
    refine outcome_bind_congr fun v t value => outcome_branch_congr (present v t value) ?_
    exact fun branch branch' here here' => (taken v t branch branch' value here here').outcome_eq
  | .repeated counted counted' given given' copies, known, found, found' => by
    rw [interpolate_array found known counted given, interpolate_array found' known counted' given']
    refine outcome_bind_congr fun n t value => ?_
    have each := (copies n t value).outcome_eq
    simp only [numbered, List.map_map, Function.comp_def] at each
    rw [outcome_map, outcome_map, each]
  | .rows named named' given given' layout copies, known, found, found' => by
    rw [interpolate_csv found known named given, interpolate_csv found' known named' given', ← layout]
    refine outcome_bind_congr fun path t value => outcome_bind_congr fun content u read => ?_
    rw [outcome_readFile] at read
    obtain ⟨content, rfl⟩ := Prod.mk.inj read
    rw [outcome_map, outcome_map, (copies path _ t value content).outcome_eq]
  | .custom blind bodies, known, found, found' => by
    have inner : interpolate h ctx body = interpolate h ctx body' :=
      funext fun t => (bodies t).outcome_eq
    rw [interpolate_custom found known, interpolate_custom found' known, blind, inner]

theorem SameSelectedAll.outcome_eq {h : Host} {s : State} {parts parts' : List (Context × Json)} :
    SameSelectedAll h s parts parts' →
    (interpolateAll h parts).outcome s = (interpolateAll h parts').outcome s
  | .nil => rfl
  | .cons first others => by
    rw [interpolateAll_cons, interpolateAll_cons, outcome_bind, outcome_bind, ← first.outcome_eq]
    rcases value : (interpolate h _ _).outcome s with ⟨_ | out, t⟩
    · rfl
    · simp only [outcome_map, (others out t value).outcome_eq]

end

section Unselected

variable {h : Host} {ctx : Context} {s t : State} {fields fields' desc desc' : Fields} {name : String}
  {v : Json} (found : Fields.command? fields = some (name, .obj desc))
  (found' : Fields.command? fields' = some (name, .obj desc'))

include found found'

/-- Of an `$if` only the branch that its condition asks for counts: the other may be any, and a missing
`else` is no fault. -/
theorem SameSelected.of_taken {condition yes yes' : Json}
    (known : h.commands.lookup name = some .choice)
    (asked : Named.get? desc "condition" = some condition)
    (asked' : Named.get? desc' "condition" = some condition)
    (given : Named.get? desc "then" = some yes) (given' : Named.get? desc' "then" = some yes')
    (value : ((Condition.ofJson condition).value h.engine ctx).outcome s = (.ok v, t))
    (taken : Named.get? desc (if v.isTruthy then "then" else "else") =
      Named.get? desc' (if v.isTruthy then "then" else "else")) :
    SameSelected h ctx s (.obj fields) (.obj fields') := by
  refine .command known found found' (.choice asked asked' given given' ?_ ?_)
  · intro v' t' value'
    cases value.symm.trans value'
    rw [taken]
  · intro v' t' branch branch' value' here here'
    cases value.symm.trans value'
    cases here.symm.trans (taken.trans here')
    exact .same

/-- Of an `$array` whose count is zero the element may be any. -/
theorem SameSelected.of_no_copies {count element element' : Json}
    (known : h.commands.lookup name = some .array)
    (counted : Named.get? desc "count" = some count)
    (counted' : Named.get? desc' "count" = some count)
    (given : Named.get? desc "element" = some element)
    (given' : Named.get? desc' "element" = some element')
    (zero : ((Count.ofJson count).resolve h.engine ctx).outcome s = (.ok 0, t)) :
    SameSelected h ctx s (.obj fields) (.obj fields') := by
  refine .command known found found' (.repeated counted counted' given given' fun n t' value => ?_)
  cases zero.symm.trans value
  exact .nil

/-- Of a `$csv` whose file has no rows that are items the element may be any. -/
theorem SameSelected.of_no_rows {file content : String} {element element' path : Json}
    (known : h.commands.lookup name = some .csv)
    (named : Named.get? desc "file" = some (.str file))
    (named' : Named.get? desc' "file" = some (.str file))
    (given : Named.get? desc "element" = some element)
    (given' : Named.get? desc' "element" = some element')
    (layout : RowLayout.ofFields desc = RowLayout.ofFields desc')
    (value : (expand h.engine ctx file).outcome s = (.ok path, t))
    (read : h.file path.display = .ok content) (none : (RowLayout.ofFields desc).items content = []) :
    SameSelected h ctx s (.obj fields) (.obj fields') := by
  refine .command known found found'
    (.rows named named' given given' layout fun path' content' t' value' read' => ?_)
  cases value.symm.trans value'
  cases read.symm.trans read'
  rw [none]
  exact .nil

end Unselected

/-- Parts that an expansion does not select have no effect: whatever stands there, result, bag, response
and journal are the same. A command that is not known stands for itself, with its body as it is, and
nothing is done for it. -/
theorem interpolate_unselected (h : Host) (ctx : Context) (s : State) :
    (∀ v w, SameSelected h ctx s v w →
      (interpolate h ctx v).outcome s = (interpolate h ctx w).outcome s) ∧
    ∀ fields name body, Fields.command? fields = some (name, body) →
      h.commands.lookup name = none →
      (interpolate h ctx (.obj fields)).outcome s = (.ok (some (.obj [(name, body)])), s) := by
  refine ⟨fun v w alike => alike.outcome_eq, fun fields name body found unknown => ?_⟩
  rw [interpolate_unknown found unknown, outcome_pure]

/-- A text with code that has no value. -/
def unset : Json := .str "$\x7bboom\x7d"

/-- A template with five parts that are not selected if `n` is false and the file has only one line. -/
def idle (a b c d e : Json) : Json :=
  .arr [
    .obj [("$if", .obj [("condition", .str "$\x7bn\x7d"), ("then", a), ("else", .int 1)]), ("beside", b)],
    .obj [("$array", .obj [("count", .str "n"), ("element", c)])],
    .obj [("$csv", .obj [("file", .str "f"), ("element", d), ("firstLineHeader", .bool true)])],
    .obj [("$if", .obj [("condition", .int 1), ("then", .int 2), ("else", e)])]]

theorem interpolate_unselected_idle :
    let h : Host := { recalling with file := fun _ => .ok "x,y" }
    let ctx : Context := { locals := [("n", .bool false)] }
    (interpolate h ctx (idle unset .null unset .null unset)).outcome {} =
      (interpolate h ctx (idle .null (.arr []) (.int 3) unset .null)).outcome {} ∧
    (interpolate h ctx (.obj [("$boom", unset)])).outcome {} =
      (.ok (some (.obj [("$boom", unset)])), {}) := by
  intro h ctx
  have inert := interpolate_unselected h ctx {}
  refine ⟨inert.1 _ _ ?_, inert.2 _ _ _ (by rfl) (by rfl)⟩
  refine .items (.cons ?_ fun _ _ _ => .cons ?_ fun _ _ _ => .cons ?_ fun _ _ _ =>
    .cons ?_ fun _ _ _ => .nil)
  · apply SameSelected.of_taken <;> rfl
  · apply SameSelected.of_no_copies <;> rfl
  · apply SameSelected.of_no_rows <;> rfl
  · apply SameSelected.of_taken <;> rfl

end RuleService
