import RuleService.Proofs.Parts
import RuleService.Reply.Dispatch

namespace RuleService

/-- Work in steps: snippets, reads of files, and changes of the response. What comes next depends on what the
snippets and the files gave so far, and on nothing else, so that other work can come between two steps. -/
inductive Course (α : Type) where
  | done (a : α)
  | failed (f : Failure)
  | evaluate (code : String) (locals : Fields) (next : Json → Course α)
  | execute (code : String) (locals : Fields) (next : Course α)
  | read (path : String) (next : String → Course α)
  | reply (change : Response → Response) (next : Course α)

namespace Course

variable {α β : Type}

protected def bind (c : Course α) (next : α → Course β) : Course β :=
  match c with
  | done a => next a
  | failed f => failed f
  | evaluate code locals rest => evaluate code locals fun v => (rest v).bind next
  | execute code locals rest => execute code locals (rest.bind next)
  | read path rest => read path fun content => (rest content).bind next
  | reply change rest => reply change (rest.bind next)

instance : Monad Course where
  pure := done
  bind := Course.bind

/-- The work of a course when nothing comes between its steps. -/
def run (h : Host) (request : Request) : Course α → Effect α
  | done a => pure a
  | failed f => throw f
  | evaluate code locals next => do
    let v ← RuleService.evaluate h.engine { request, locals } code
    (next v).run h request
  | execute code locals next => do
    RuleService.execute h.engine { request, locals } code
    next.run h request
  | read path next => do
    let content ← h.readFile path
    (next content).run h request
  | reply change next => do
    Effect.reply change
    next.run h request

/-- The next step of a course, with what is left after it; none if nothing is left. -/
def step (h : Host) (request : Request) : Course α → Option (Effect (Course α))
  | done _ | failed _ => none
  | evaluate code locals next =>
    some (next <$> RuleService.evaluate h.engine { request, locals } code)
  | execute code locals next =>
    some ((fun _ => next) <$> RuleService.execute h.engine { request, locals } code)
  | read path next => some (next <$> h.readFile path)
  | reply change next => some ((fun _ => next) <$> Effect.reply change)

/-- The response when nothing is left of the work on it. -/
def close : Course α → Response → Response
  | failed f, r => r.failed f
  | _, r => r

def value (ctx : Context) (code : String) : Course Json := evaluate code ctx.locals done

def splice (ctx : Context) : String → List Piece → Course String
  | acc, [] => pure acc
  | acc, .plain text :: rest => splice ctx (acc ++ text) rest
  | acc, .code text :: rest => do
    let v ← value ctx text
    splice ctx (acc ++ v.display) rest

def pieces (ctx : Context) : List Piece → Course Json
  | [.code text] => value ctx text
  | ps => Json.str <$> splice ctx "" ps

def script (ctx : Context) (s : Script) : Course Unit :=
  s.statements.forM fun code => execute code ctx.locals (done ())

def ofExcept : Except Failure α → Course α
  | .ok a => done a
  | .error f => failed f

def condition (ctx : Context) : Condition → Course Json
  | .known v => pure v
  | .text ps => pieces ctx ps

def count (ctx : Context) (c : Count) : Course Nat := do
  let v ← match c with
    | .known v => pure v
    | .text ps => pieces ctx ps
    | .expression code => value ctx code
  ofExcept (Count.size v >>= Count.check)

def collect (f : α → Course (Option Json)) : List Json → List α → Course (List Json)
  | acc, [] => pure acc.reverse
  | acc, a :: rest => do
    let v ← f a
    collect f (v.getD .null :: acc) rest

mutual

/-- The course of a template without added commands; of these no steps are known. -/
def template (ctx : Context) : Template → Course (Option Json)
  | .verbatim v => pure (some v)
  | .text ps => some <$> pieces ctx ps
  | .items templates => do
    let vs ← templateItems ctx templates
    pure (some (.arr vs))
  | .object fields => do
    let kvs ← templateFields ctx fields
    pure (some (.obj kvs))
  | .repeated c element => do
    let n ← count ctx c
    let vs ← collect (fun (i : Nat) => template (ctx.bind "i" (.int i)) element) [] (List.range n)
    pure (some (.arr vs))
  | .rows file layout element => do
    let path ← pieces ctx file
    let content ← read path.display done
    let vs ← collect (fun locals => template (ctx.bindAll locals) element) [] (layout.items content)
    pure (some (.arr vs))
  | .statements s => do
    script ctx s
    pure none
  | .choice c yes no => do
    let v ← condition ctx c
    if v.isTruthy then template ctx yes else template ctx no
  | .omitted => pure none
  | .faulty f => failed f
  | .custom .. => failed (.malformed "" "")

def templateItems (ctx : Context) : List Template → Course (List Json)
  | [] => pure []
  | t :: rest => do
    let v ← template ctx t
    let vs ← templateItems ctx rest
    pure (v.getD .null :: vs)

def templateFields (ctx : Context) : List (String × Template) → Course Fields
  | [] => pure []
  | (key, t) :: rest => do
    let v ← template ctx t
    let kvs ← templateFields ctx rest
    pure (match v with
      | some v => (key, v) :: kvs
      | none => kvs)

end

def document (ctx : Context) (v : Json) : Course Json := do
  let out ← template ctx (Template.ofJson Commands.builtIn v)
  pure (out.getD .null)

def applies (ctx : Context) (rule : Rule) : Course Bool :=
  match rule.condition with
  | none => pure true
  | some code => Json.isTruthy <$> value ctx code

def resolve (ctx : Context) (place : Nat) : List Rule → Course (Option (Nat × Rule))
  | [] => pure none
  | rule :: rest => do
    if ← applies ctx rule then pure (some (place, rule))
    else resolve ctx (place + 1) rest

def fileText (ctx : Context) (path extension content : String) : Course String :=
  if extension == "html" || extension == "htm" then
    Json.display <$> pieces ctx (Piece.ofText content)
  else if extension == "json" then
    match Json.parse content with
    | .ok v => Json.render <$> document ctx v
    | .error why => failed (.unreadable path ("invalid JSON: " ++ why))
  else pure content

def change (f : Response → Response) : Course Unit := reply f (done ())

def sendFile (ctx : Context) (path : String) : Course Unit := do
  let content ← read path done
  let extension := foldName (Path.extension path)
  let text ← fileText ctx path extension content
  change fun r =>
    { r.setDefaultHeader contentTypeName (ContentType.ofExtension extension) with body := .str text }

def ending (ctx : Context) : Ending → Course Unit
  | .file path => sendFile ctx path
  | .redirect target => change fun r =>
    { r with status := Ending.redirectStatus r.status, redirect := some target }
  | .status code => change fun r => { r with status := code, body := .null }
  | .text body => change fun r =>
    { r.setDefaultHeader contentTypeName ContentType.html with body := .str body }
  | .missing => change fun r => { r with status := 500, body := .null }

def held (ctx : Context) : Option Script → Course Unit
  | some s => script ctx s
  | none => pure ()

def rule (ctx : Context) (r : Rule) : Course Unit := do
  held ctx r.before
  let recipe := Recipe.ofJson (← document ctx r.template)
  change (Recipe.setHeaders recipe.headers)
  ending ctx recipe.ending
  held ctx r.after

/-- The course of a request that these rules answer. -/
def rules (ctx : Context) (rs : List Rule) : Course Unit := do
  match ← resolve ctx 0 rs with
  | some (_, r) => rule ctx r
  | none => failed (.unresolved ctx.request.method ctx.request.path)

attribute [local simp] run template

variable {h : Host} {ctx : Context} {request : Request}

@[simp] theorem run_pure (a : α) : (pure a : Course α).run h request = pure a := rfl

@[simp] theorem run_failed (f : Failure) : (failed f : Course α).run h request = throw f := rfl

@[simp] theorem run_bind (c : Course α) (next : α → Course β) :
    (c >>= next).run h request = c.run h request >>= fun a => (next a).run h request := by
  change (Course.bind c next).run h request = _
  induction c with
  | done a => simp [Course.bind, run]
  | failed f => rfl
  | evaluate code locals rest ih => simp [Course.bind, ih]
  | execute code locals rest ih => simp [Course.bind, ih]
  | read path rest ih => simp [Course.bind, ih]
  | reply change rest ih => simp [Course.bind, ih]

@[simp] theorem run_map (f : α → β) (c : Course α) :
    (f <$> c).run h request = f <$> c.run h request := by
  have mapped : (f <$> c : Course β) = c >>= fun a => pure (f a) := rfl
  rw [mapped, run_bind, map_eq_pure_bind]
  rfl

/-- A course takes its steps one after the other. -/
theorem run_step {c : Course α} {work : Effect (Course α)} (next : c.step h request = some work) :
    c.run h request = work >>= fun rest => rest.run h request := by
  cases c with
  | done a => cases next
  | failed f => cases next
  | _ =>
    obtain rfl := Option.some.inj next
    simp only [run, bind_map_left]

theorem run_read (path : String) : (read path done).run h request = h.readFile path := by
  simp only [run, bind_pure]

theorem run_change (f : Response → Response) :
    (change f).run h request = Effect.reply f := by
  simp only [change, run, bind_pure_unit]

theorem run_value (code : String) :
    (value ctx code).run h ctx.request = RuleService.evaluate h.engine ctx code := by
  simp only [value, run, bind_pure]

theorem run_splice (ps : List Piece) (acc : String) :
    (splice ctx acc ps).run h ctx.request = RuleService.splice h.engine ctx acc ps := by
  induction ps generalizing acc with
  | nil => rfl
  | cons piece ps ih =>
    cases piece with
    | plain text => exact ih (acc ++ text)
    | code text => simp only [splice, RuleService.splice, run_bind, run_value, ih]

theorem run_pieces (ps : List Piece) :
    (pieces ctx ps).run h ctx.request = expandPieces h.engine ctx ps := by
  fun_cases expandPieces h.engine ctx ps with
  | case1 text => exact run_value _
  | case2 _ several => rw [pieces.eq_2 ctx ps several, run_map, run_splice]

theorem run_script (s : Script) : (script ctx s).run h ctx.request = s.execute h.engine ctx := by
  unfold script Script.execute
  induction s.statements with
  | nil => rfl
  | cons code rest ih =>
    simp only [List.forM] at ih ⊢
    rw [run_bind, ih]
    simp only [run, bind_pure_unit]

theorem run_ofExcept (r : Except Failure α) : (ofExcept r).run h request = liftExcept r := by
  cases r <;> rfl

theorem run_condition (c : Condition) :
    (condition ctx c).run h ctx.request = c.value h.engine ctx := by
  cases c with
  | known v => rfl
  | text ps => exact run_pieces ps

theorem run_count (c : Count) : (count ctx c).run h ctx.request = c.resolve h.engine ctx := by
  cases c <;> simp [count, Count.resolve, Count.value, run_pieces, run_value, run_ofExcept]

theorem run_collect {f : α → Course (Option Json)} {g : α → Effect (Option Json)}
    (each : ∀ a, (f a).run h request = g a) (acc : List Json) (as : List α) :
    (collect f acc as).run h request = Template.collect g acc as := by
  induction as generalizing acc with
  | nil => rfl
  | cons a as ih => simp only [collect, Template.collect, run_bind, each, ih]

/-- A template in which no command is one that was added. -/
inductive Stock : Template → Prop
  | verbatim (v : Json) : Stock (.verbatim v)
  | text (ps : List Piece) : Stock (.text ps)
  | items {templates : List Template} (each : ∀ t ∈ templates, Stock t) : Stock (.items templates)
  | object {fields : List (String × Template)} (each : ∀ field ∈ fields, Stock field.2) :
      Stock (.object fields)
  | repeated (c : Count) {element : Template} (inner : Stock element) : Stock (.repeated c element)
  | rows (file : List Piece) (layout : RowLayout) {element : Template} (inner : Stock element) :
      Stock (.rows file layout element)
  | statements (s : Script) : Stock (.statements s)
  | choice (c : Condition) {yes no : Template} (one : Stock yes) (other : Stock no) :
      Stock (.choice c yes no)
  | omitted : Stock .omitted
  | faulty (f : Failure) : Stock (.faulty f)

theorem run_templateItems {templates : List Template}
    (each : ∀ t ∈ templates, (template ctx t).run h ctx.request = t.expand h ctx) :
    (templateItems ctx templates).run h ctx.request = Template.expandItems h ctx templates := by
  induction templates with
  | nil => rfl
  | cons t rest ih =>
    have first := each t (by simp)
    have later := ih fun t ht => each t (by simp [ht])
    simp [templateItems, Template.expandItems, first, later]

theorem run_templateFields {fields : List (String × Template)}
    (each : ∀ field ∈ fields, (template ctx field.2).run h ctx.request = field.2.expand h ctx) :
    (templateFields ctx fields).run h ctx.request = Template.expandFields h ctx fields := by
  induction fields with
  | nil => rfl
  | cons field rest ih =>
    obtain ⟨key, t⟩ := field
    have first : (template ctx t).run h ctx.request = t.expand h ctx := each (key, t) (by simp)
    have later := ih fun field hf => each field (by simp [hf])
    rw [templateFields, Template.expandFields, run_bind, first]
    refine bind_congr fun v => ?_
    rw [run_bind, later]
    cases v <;> rfl

theorem run_template {t : Template} (stock : Stock t) (ctx : Context) :
    (template ctx t).run h ctx.request = t.expand h ctx := by
  induction stock generalizing ctx with
  | verbatim v => rfl
  | text ps => simp [Template.expand, run_pieces]
  | items each ih =>
    simp [Template.expand, run_templateItems fun t ht => ih t ht ctx]
  | object each ih =>
    simp [Template.expand, run_templateFields fun field hf => ih field hf ctx]
  | @repeated c element inner ih =>
    rw [template, Template.expand, run_bind, run_count]
    refine bind_congr fun n => ?_
    have elements :
        (collect (fun i : Nat => template (ctx.bind "i" (.int i)) element) [] (List.range n)).run h
          ctx.request = _ := run_collect (fun i : Nat => ih (ctx.bind "i" (.int i))) [] (List.range n)
    rw [run_bind, elements]
    rfl
  | @rows file layout element inner ih =>
    rw [template, Template.expand, run_bind, run_pieces]
    refine bind_congr fun path => ?_
    rw [run_bind, run_read]
    refine bind_congr fun content => ?_
    have elements :
        (collect (fun locals => template (ctx.bindAll locals) element) [] (layout.items content)).run
          h ctx.request = _ :=
      run_collect (fun locals => ih (ctx.bindAll locals)) [] (layout.items content)
    rw [run_bind, elements]
    rfl
  | statements s => simp [Template.expand, run_script]
  | choice c one other ihOne ihOther =>
    rw [template, Template.expand, run_bind, run_condition]
    refine bind_congr fun v => ?_
    split
    · exact ihOne ctx
    · exact ihOther ctx
  | omitted => rfl
  | faulty f => rfl

theorem ofItems_eq (commands : Commands) (vs : List Json) :
    Template.ofItems commands vs = vs.map (Template.ofJson commands) := by
  induction vs with
  | nil => rfl
  | cons v vs ih => simp [Template.ofItems, ih]

theorem ofFields_eq (commands : Commands) (fields : Fields) :
    Template.ofFields commands fields =
      fields.map fun (key, v) => (key, Template.ofJson commands v) := by
  induction fields with
  | nil => rfl
  | cons field rest ih =>
    obtain ⟨key, v⟩ := field
    simp [Template.ofFields, ih]

theorem stock_ofCommand {name : String} {body : Json}
    (inner : ∀ desc key w, body = .obj desc → Named.get? desc key = some w →
      Stock (Template.ofJson Commands.builtIn w)) :
    Stock (Template.ofCommand Commands.builtIn (name, body)) := by
  cases known : Commands.builtIn.lookup name with
  | none =>
    simp only [Template.ofCommand, known]
    exact .verbatim _
  | some command =>
    obtain ⟨-, rfl⟩ | ⟨-, rfl⟩ | ⟨-, rfl⟩ | ⟨-, rfl⟩ := Commands.builtIn_cases known
    · obtain ⟨desc, c, element, rfl, hc, he⟩ | ⟨message, refused⟩ := array_or_faulty known body
      · simp only [Template.ofCommand, known, Template.ofArray, Template.field?_eq, hc, he,
          Option.map_some]
        exact .repeated _ (inner desc _ element rfl he)
      · rw [refused]
        exact .faulty _
    · obtain ⟨desc, file, element, rfl, hf, he⟩ | ⟨message, refused⟩ := csv_or_faulty known body
      · simp only [Template.ofCommand, known, Template.ofCsv, Template.field?_eq, hf, he,
          Option.map_some]
        exact .rows _ _ (inner desc _ element rfl he)
      · rw [refused]
        exact .faulty _
    · simp only [Template.ofCommand, known, Template.ofExec]
      split
      · exact .statements _
      · exact .faulty _
    · obtain ⟨desc, c, yes, rfl, hc, hy⟩ | ⟨message, refused⟩ := if_or_faulty known body
      · simp only [Template.ofCommand, known, Template.ofIf, Template.field?_eq, hc, hy,
          Option.map_some]
        refine .choice _ (inner desc _ yes rfl hy) ?_
        cases he : Named.get? desc "else" with
        | none => exact .omitted
        | some no => exact inner desc _ no rfl he
      · rw [refused]
        exact .faulty _

/-- Over the built-in commands no template has others: by induction on the size, since a command holds its
templates two levels below it. -/
theorem stock_ofJson (v : Json) : Stock (Template.ofJson Commands.builtIn v) := by
  induction v using Json.size_induction with
  | step v ih =>
  cases v with
  | arr vs =>
    rw [Template.ofJson, ofItems_eq]
    refine .items fun t ht => ?_
    obtain ⟨w, member, rfl⟩ := List.mem_map.mp ht
    exact ih w (Json.sizeOf_item_lt member)
  | obj fields =>
    rw [Template.ofJson, Template.firstCommand?_eq]
    cases found : Fields.command? fields with
    | none =>
      rw [ofFields_eq]
      refine .object fun field hf => ?_
      obtain ⟨member, listed, rfl⟩ := List.mem_map.mp hf
      exact ih member.2 (Json.sizeOf_field_lt listed)
    | some command =>
      obtain ⟨name, body⟩ := command
      refine stock_ofCommand fun desc key w hb held => ?_
      subst hb
      exact ih w (Json.sizeOf_described_lt found held)
  | str text => exact .text _
  | _ => exact .verbatim _

variable (stock : h.commands = Commands.builtIn)

include stock

theorem run_document (v : Json) :
    (document ctx v).run h ctx.request = interpolateDocument h ctx v := by
  rw [document, interpolateDocument, interpolate, stock, run_bind, run_template (stock_ofJson v)]
  rfl

omit stock in
theorem run_applies (r : Rule) : (applies ctx r).run h ctx.request = r.applies h.engine ctx := by
  unfold applies Rule.applies
  cases r.condition with
  | none => rfl
  | some code => exact (run_map _ _).trans (congrArg _ (run_value code))

omit stock in
theorem run_resolve (rs : List Rule) (place : Nat) :
    (resolve ctx place rs).run h ctx.request = Rule.resolve h.engine ctx place rs := by
  induction rs generalizing place with
  | nil => rfl
  | cons r rs ih =>
    rw [resolve, Rule.resolve, run_bind, run_applies]
    refine bind_congr fun yes => ?_
    cases yes with
    | true => rfl
    | false => exact ih (place + 1)

theorem run_fileText (path extension content : String) :
    (fileText ctx path extension content).run h ctx.request =
      Ending.fileText h ctx path extension content := by
  unfold fileText Ending.fileText
  split
  · exact (run_map _ _).trans (congrArg _ (run_pieces _))
  · split
    · cases Json.parse content with
      | ok v => exact (run_map _ _).trans (congrArg _ (run_document stock v))
      | error => rfl
    · rfl

theorem run_sendFile (path : String) :
    (sendFile ctx path).run h ctx.request = Ending.sendFile h ctx path := by
  rw [sendFile, Ending.sendFile, run_bind, run_read]
  refine bind_congr fun content => ?_
  rw [run_bind, run_fileText stock]
  exact bind_congr fun text => run_change _

theorem run_ending (e : Ending) : (ending ctx e).run h ctx.request = e.perform h ctx := by
  cases e with
  | file path => exact run_sendFile stock path
  | _ => exact run_change _

omit stock in
theorem run_held (s : Option Script) :
    (held ctx s).run h ctx.request = Rule.runScript h ctx s := by
  cases s with
  | none => rfl
  | some s => exact run_script s

theorem run_rule (r : Rule) : (rule ctx r).run h ctx.request = r.run h ctx := by
  rw [rule, Rule.run, run_bind, run_held]
  refine bind_congr fun _ => ?_
  rw [run_bind, run_document stock]
  refine bind_congr fun v => ?_
  simp only [run_bind, run_change, run_ending stock, run_held]

/-- The course of a request is the work of its rules. -/
theorem run_rules (rs : List Rule) : (rules ctx rs).run h ctx.request = Rule.runFirst h ctx rs := by
  rw [rules, Rule.runFirst, run_bind, run_resolve]
  refine bind_congr fun found => ?_
  cases found with
  | none => rfl
  | some placed => exact run_rule stock placed.2

end Course

end RuleService
