import RuleService.Proofs.Commit
import RuleService.Proofs.Expands
import RuleService.Proofs.Repetition
import RuleService.Proofs.Trace

namespace RuleService

open Effect

/-- One turn of a command that repeats its element. -/
inductive Frame where
  /-- An element of `$array`, by its number. -/
  | copy (i : Nat)
  /-- An element of `$csv`, by its row and the names of the cells. -/
  | row (names : List String) (given : Row)

/-- What is bound in a turn. -/
def Frame.bindings : Frame → Fields
  | copy i => [("i", .int i)]
  | row names given => given.locals names

theorem Frame.nodup_keys (frame : Frame) : frame.bindings.keys.Nodup := by
  cases frame <;> simp [bindings, Row.locals, Named.keys]

/-- A context within turns, the outermost first: its locals with what the turns bind laid over them. -/
def Context.within (ctx : Context) (frames : List Frame) : Context :=
  { ctx with locals := frames.foldl (fun locals frame => locals.putAll frame.bindings) ctx.locals }

variable {ctx : Context} {frames : List Frame} {s : State} {name : String}

theorem Context.within_cons (frame : Frame) :
    ctx.within (frame :: frames) = (ctx.bindAll frame.bindings).within frames := rfl

theorem Context.within_snoc (frame : Frame) :
    ctx.within (frames ++ [frame]) = (ctx.within frames).bindAll frame.bindings := by
  simp [within, bindAll]

theorem Context.nodup_within (once : ctx.locals.keys.Nodup) :
    (ctx.within frames).locals.keys.Nodup := by
  induction frames generalizing ctx with
  | nil => exact once
  | cons frame frames ih =>
    rw [within_cons]
    exact ih (Named.nodup_keys_putAll once frame.bindings)

/-- The innermost turn that binds a name says what it stands for. -/
theorem Context.get?_within : (ctx.within frames).locals.get? name =
    (frames.reverse.findSome? (·.bindings.lookup name)).or (ctx.locals.get? name) := by
  induction frames generalizing ctx with
  | nil => simp [within]
  | cons frame frames ih =>
    have bound : (ctx.bindAll frame.bindings).locals.get? name =
        (frame.bindings.lookup name).or (ctx.locals.get? name) := by
      rw [← lookup_reverse_of_nodup frame.nodup_keys]
      exact Named.get?_putAll ..
    rw [within_cons, ih, bound, List.reverse_cons, List.findSome?_append, Option.or_assoc]
    simp

/-- What a name stands for in a snippet: what the innermost turn binds it to, or else the local of the
context, or else what every snippet is given. -/
theorem lookup_within (once : ctx.locals.keys.Nodup) :
    (bindingsFor (ctx.within frames) s).reverse.lookup name =
      ((frames.reverse.findSome? (·.bindings.lookup name)).or (ctx.locals.get? name)).or
        ((bindingsFor { ctx with locals := [] } s).reverse.lookup name) := by
  rw [lookup_bindingsFor, lookup_bindingsFor, lookup_reverse_of_nodup (Context.nodup_within once)]
  exact congrArg₂ Option.or Context.get?_within rfl

/-- The codes of the placeholders of a text, from left to right. -/
def Piece.codes (pieces : List Piece) : List String :=
  pieces.filterMap fun
    | code text => some text
    | plain _ => none

def Condition.codes : Condition → List String
  | known _ => []
  | text pieces => Piece.codes pieces

def Count.codes : Count → List String
  | known _ => []
  | text pieces => Piece.codes pieces
  | expression code => [code]

/-- Codes that are evaluated in a context, one after the other. -/
def Context.evaluations (ctx : Context) (codes : List String) : List Act :=
  codes.map (.evaluate · ctx.locals)

/-- Codes that are executed in a context, one after the other. -/
def Context.executions (ctx : Context) (codes : List String) : List Act :=
  codes.map (.execute · ctx.locals)

mutual

/-- What is done, in this order, when a value is expanded to its end within turns. What a command
does to find out how often its element is repeated is outside of the turns of that element. -/
inductive Tour (h : Host) (ctx : Context) : List Frame → Json → List Act → Prop
  | scalar {frames : List Frame} {v : Json} (bare : v.Scalar) : Tour h ctx frames v []
  | text {frames : List Frame} {text : String} :
      Tour h ctx frames (.str text)
        ((ctx.within frames).evaluations (Piece.codes (Piece.ofText text)))
  | items {frames : List Frame} {vs : List Json} {acts : List Act}
      (each : Tours h ctx (vs.map fun v => (frames, v)) acts) : Tour h ctx frames (.arr vs) acts
  | fields {frames : List Frame} {fields : Fields} {acts : List Act}
      (plain : fields.command? = none)
      (each : Tours h ctx (fields.map fun field => (frames, field.2)) acts) :
      Tour h ctx frames (.obj fields) acts
  | unknown {frames : List Frame} {fields : Fields} {name : String} {body : Json}
      (found : fields.command? = some (name, body))
      (unknown : h.commands.lookup name = none) : Tour h ctx frames (.obj fields) []
  | malformed {frames : List Frame} {fields : Fields} {name : String} {body : Json}
      {f : Failure} (found : fields.command? = some (name, body))
      (faulty : Template.ofCommand h.commands (name, body) = .faulty f) :
      Tour h ctx frames (.obj fields) [.refuse f]
  | statements {frames : List Frame} {fields : Fields} {body : Json} {script : Script}
      (found : fields.command? = some ("$exec", body)) (read : Script.ofJson? body = some script) :
      Tour h ctx frames (.obj fields) ((ctx.within frames).executions script.statements)
  | branch {frames : List Frame} {fields desc : Fields} {condition branch : Json} {acts : List Act}
      (truthy : Bool) (found : fields.command? = some ("$if", .obj desc))
      (asked : desc.get? "condition" = some condition)
      (taken : desc.get? (if truthy then "then" else "else") = some branch)
      (rest : Tour h ctx frames branch acts) :
      Tour h ctx frames (.obj fields)
        ((ctx.within frames).evaluations (Condition.ofJson condition).codes ++ acts)
  | neither {frames : List Frame} {fields desc : Fields} {condition : Json}
      (found : fields.command? = some ("$if", .obj desc))
      (asked : desc.get? "condition" = some condition) (absent : desc.get? "else" = none) :
      Tour h ctx frames (.obj fields)
        ((ctx.within frames).evaluations (Condition.ofJson condition).codes)
  | copies {frames : List Frame} {fields desc : Fields} {count element : Json} {n : Nat}
      {acts : List Act} (found : fields.command? = some ("$array", .obj desc))
      (counted : desc.get? "count" = some count) (given : desc.get? "element" = some element)
      (each : Tours h ctx
        ((List.range n).map fun i => (frames ++ [.copy i], element)) acts) :
      Tour h ctx frames (.obj fields)
        ((ctx.within frames).evaluations (Count.ofJson count).codes ++ acts)
  | uncounted {frames : List Frame} {fields desc : Fields} {count element v : Json} {f : Failure}
      (found : fields.command? = some ("$array", .obj desc))
      (counted : desc.get? "count" = some count) (given : desc.get? "element" = some element)
      (refused : (Count.size v >>= Count.check) = .error f) :
      Tour h ctx frames (.obj fields)
        ((ctx.within frames).evaluations (Count.ofJson count).codes ++ [.refuse f])
  | rows {frames : List Frame} {fields desc : Fields} {file path content : String} {element : Json}
      {names : List String} {rows : List Row} {acts : List Act}
      (found : fields.command? = some ("$csv", .obj desc))
      (named : desc.get? "file" = some (.str file)) (given : desc.get? "element" = some element)
      (read : h.file path = .ok content)
      (table : (RowLayout.ofFields desc).table content = (names, rows))
      (each : Tours h ctx (rows.map fun row => (frames ++ [.row names row], element)) acts) :
      Tour h ctx frames (.obj fields)
        ((ctx.within frames).evaluations (Piece.codes (Piece.ofText file)) ++ .read path :: acts)
  | unread {frames : List Frame} {fields desc : Fields} {file path : String} {element : Json}
      {f : Failure} (found : fields.command? = some ("$csv", .obj desc))
      (named : desc.get? "file" = some (.str file)) (given : desc.get? "element" = some element)
      (failed : h.file path = .error f) :
      Tour h ctx frames (.obj fields)
        ((ctx.within frames).evaluations (Piece.codes (Piece.ofText file)) ++ [.read path])

/-- What is done when values are expanded one after the other, each within turns of its own. -/
inductive Tours (h : Host) (ctx : Context) : List (List Frame × Json) → List Act → Prop
  | nil : Tours h ctx [] []
  | cons {frames : List Frame} {v : Json} {rest : List (List Frame × Json)} {acts more : List Act}
      (first : Tour h ctx frames v acts) (others : Tours h ctx rest more) :
      Tours h ctx ((frames, v) :: rest) (acts ++ more)

end

/-- Some work goes along a list of acts: all of them if it succeeds, and else the first ones, up to
the one that fails. -/
def Along {α : Type} (h : Host) (request : Request) (s : State) (acts : List Act)
    (work : Effect α) : Prop :=
  ∃ made, made <+: acts ∧ ((work.outcome s).1.isOk = true → made = acts) ∧
    Ran h request made s (failure? (work.outcome s).1) (work.outcome s).2

/-- The expansion of a value within turns goes along a tour. -/
def Toured (h : Host) (ctx : Context) (frames : List Frame) (v : Json) (s : State) : Prop :=
  ∃ acts, Tour h ctx frames v acts ∧
    Along h ctx.request s acts (interpolate h (ctx.within frames) v)

namespace Along

variable {α β : Type} {h : Host} {request : Request} {acts more : List Act} {work : Effect α}

protected theorem pure (a : α) : Along h request s [] (pure a) :=
  ⟨[], List.prefix_rfl, fun _ => rfl, .done s⟩

/-- Work that is one act, its value apart. -/
theorem single (act : Act) (performs : act.perform h request = (fun _ => ()) <$> work) :
    Along h request s [act] work := by
  have ran := Ran.single h request act s
  rw [performs, outcome_map, failure?_map] at ran
  exact ⟨[act], List.prefix_rfl, fun _ => rfl, ran⟩

theorem refuse (f : Failure) : Along h request s [.refuse f] (throw f : Effect α) :=
  single (.refuse f) rfl

theorem evaluate (ctx : Context) (code : String) :
    Along h ctx.request s (ctx.evaluations [code]) (RuleService.evaluate h.engine ctx code) :=
  single (.evaluate code ctx.locals) rfl

theorem execute (ctx : Context) (code : String) :
    Along h ctx.request s (ctx.executions [code]) (RuleService.execute h.engine ctx code) :=
  single (.execute code ctx.locals) (id_map' _).symm

/-- Work in two steps goes along the acts of both, if the second step is ever reached. -/
protected theorem bind {next : α → Effect β} (first : Along h request s acts work)
    (second : ∀ a t, work.outcome s = (.ok a, t) → Along h request t more (next a)) :
    Along h request s (acts ++ more) (work >>= next) := by
  obtain ⟨made, begins, whole, ran⟩ := first
  rcases hw : work.outcome s with ⟨r, t⟩
  rw [hw] at ran whole
  cases r with
  | error f =>
    refine ⟨made, begins.trans (List.prefix_append ..), ?_, ?_⟩
    · simp [outcome_bind, hw, Except.isOk, Except.toBool]
    · simpa only [outcome_bind, hw, failure?_error] using ran
  | ok a =>
    obtain rfl : made = acts := whole rfl
    obtain ⟨made', begins', whole', ran'⟩ := second a t hw
    refine ⟨made ++ made', (List.prefix_append_right_inj made).mpr begins', ?_, ?_⟩
    · simp only [outcome_bind, hw]
      intro ok
      rw [whole' ok]
    · simpa only [outcome_bind, hw] using ran.append ran'

/-- A second step that is not reached adds nothing. -/
theorem stopped {f : Failure} {next : α → Effect β} (first : Along h request s acts work)
    (fails : (work.outcome s).1 = .error f) : Along h request s acts (work >>= next) := by
  have along : Along h request s (acts ++ []) (work >>= next) := first.bind fun a t succeeds => by
    rw [succeeds] at fails
    cases fails
  rwa [List.append_nil] at along

protected theorem map (g : α → β) (along : Along h request s acts work) :
    Along h request s acts (g <$> work) := by
  obtain ⟨made, begins, whole, ran⟩ := along
  refine ⟨made, begins, ?_, ?_⟩
  · rw [outcome_map]
    intro ok
    apply whole
    cases hr : (work.outcome s).1 with
    | ok => rfl
    | error => simp [hr, Except.map, Except.isOk, Except.toBool] at ok
  · simpa only [outcome_map, failure?_map] using ran

/-- The acts of the second step are chosen by the value of the first; if there is none, any will do. -/
theorem bind_some {Fits : List Act → Prop} {next : α → Effect β}
    (first : Along h request s acts work) (some : ∃ more, Fits (acts ++ more))
    (second : ∀ a t, work.outcome s = (.ok a, t) →
      ∃ more, Fits (acts ++ more) ∧ Along h request t more (next a)) :
    ∃ all, Fits all ∧ Along h request s all (work >>= next) := by
  rcases hw : work.outcome s with ⟨f | a, t⟩
  · obtain ⟨more, fits⟩ := some
    refine ⟨acts ++ more, fits, first.bind fun a u succeeds => ?_⟩
    cases hw.symm.trans succeeds
  · obtain ⟨more, fits, along⟩ := second a t hw
    refine ⟨acts ++ more, fits, first.bind fun b u succeeds => ?_⟩
    cases hw.symm.trans succeeds
    exact along

theorem splice (ctx : Context) (pieces : List Piece) (acc : String) :
    Along h ctx.request s (ctx.evaluations (Piece.codes pieces))
      (RuleService.splice h.engine ctx acc pieces) := by
  induction pieces generalizing acc s with
  | nil => exact .pure acc
  | cons piece pieces ih =>
    cases piece with
    | plain text => exact ih (acc ++ text)
    | code code => exact (evaluate ctx code).bind fun v t _ => ih (acc ++ v.display)

theorem expandPieces (ctx : Context) (pieces : List Piece) :
    Along h ctx.request s (ctx.evaluations (Piece.codes pieces))
      (RuleService.expandPieces h.engine ctx pieces) := by
  have spliced : Along h ctx.request s (ctx.evaluations (Piece.codes pieces))
      (Json.str <$> RuleService.splice h.engine ctx "" pieces) := (splice ctx pieces "").map Json.str
  unfold RuleService.expandPieces
  split
  · exact evaluate ctx _
  · exact spliced

theorem condition (ctx : Context) (c : Condition) :
    Along h ctx.request s (ctx.evaluations c.codes) (c.value h.engine ctx) := by
  cases c with
  | known v => exact .pure v
  | text pieces => exact expandPieces ctx pieces

theorem count (ctx : Context) (c : Count) :
    Along h ctx.request s (ctx.evaluations c.codes) (c.value h.engine ctx) := by
  cases c with
  | known v => exact .pure v
  | text pieces => exact expandPieces ctx pieces
  | expression code => exact evaluate ctx code

theorem script (ctx : Context) (codes : List String) :
    Along h ctx.request s (ctx.executions codes)
      (codes.forM (RuleService.execute h.engine ctx)) := by
  induction codes generalizing s with
  | nil => exact .pure ()
  | cons code codes ih => exact (execute ctx code).bind fun _ t _ => ih

/-- Values that are expanded one after the other, each within the turns of its place. -/
theorem interpolateAll {α : Type} {as : List α} (place : α → List Frame × Json)
    (each : ∀ a ∈ as, ∀ s, Toured h ctx (place a).1 (place a).2 s) (s : State) :
    ∃ acts, Tours h ctx (as.map place) acts ∧ Along h ctx.request s acts
      (RuleService.interpolateAll h (as.map fun a => (ctx.within (place a).1, (place a).2))) := by
  induction as generalizing s with
  | nil => exact ⟨[], .nil, .pure []⟩
  | cons a as ih =>
    have rest := ih fun b listed => each b (List.mem_cons_of_mem _ listed)
    obtain ⟨acts, tour, along⟩ := each a List.mem_cons_self s
    simp only [List.map_cons, interpolateAll_cons]
    refine along.bind_some ?_ fun out t _ => ?_
    · obtain ⟨more, tours, -⟩ := rest s
      exact ⟨more, .cons tour tours⟩
    · obtain ⟨more, tours, along'⟩ := rest t
      exact ⟨more, .cons tour tours, along'.map _⟩

/-- An element that is expanded in one turn after the other. -/
theorem turns {α : Type} (as : List α) {element : Json} (turn : α → Frame)
    (known : ∀ frames s, Toured h ctx frames element s) (frames : List Frame) (s : State) :
    ∃ acts, Tours h ctx (as.map fun a => (frames ++ [turn a], element)) acts ∧
      Along h ctx.request s acts (RuleService.interpolateAll h
        (as.map fun a => ((ctx.within frames).bindAll (turn a).bindings, element))) := by
  simp only [← Context.within_snoc]
  exact interpolateAll (fun a => (frames ++ [turn a], element))
    (fun a _ => known (frames ++ [turn a])) s

end Along

section Commands

variable {h : Host} {fields : Fields} {body : Json}

theorem toured_of_faulty {f : Failure} (found : Fields.command? fields = some (name, body))
    (faulty : Template.ofCommand h.commands (name, body) = .faulty f) :
    Toured h ctx frames (.obj fields) s := by
  refine ⟨_, .malformed found faulty, ?_⟩
  rw [interpolate_faulty found faulty]
  exact .refuse f

theorem toured_exec (known : h.commands.lookup "$exec" = some .exec)
    (found : Fields.command? fields = some ("$exec", body)) :
    Toured h ctx frames (.obj fields) s := by
  obtain ⟨script, read⟩ | ⟨message, faulty⟩ := exec_or_faulty known body
  · refine ⟨_, .statements found read, ?_⟩
    rw [interpolate_exec found known read]
    exact (Along.script _ script.statements).map _
  · exact toured_of_faulty found faulty

variable (parts : ∀ (desc : Fields) (key : String) (w : Json), body = .obj desc →
  desc.get? key = some w → ∀ frames s, Toured h ctx frames w s)

include parts

theorem toured_if (known : h.commands.lookup "$if" = some .choice)
    (found : Fields.command? fields = some ("$if", body)) :
    Toured h ctx frames (.obj fields) s := by
  obtain ⟨desc, c, yes, rfl, hc, hy⟩ | ⟨message, faulty⟩ := if_or_faulty known body
  · unfold Toured
    rw [interpolate_if found known hc hy]
    refine (Along.condition (ctx.within frames) _).bind_some ?_ fun v t _ => ?_
    · obtain ⟨more, tour, -⟩ := parts desc "then" yes rfl hy frames s
      exact ⟨more, .branch true found hc hy tour⟩
    · cases taken : Named.get? desc (if v.isTruthy then "then" else "else") with
      | some branch =>
        obtain ⟨more, tour, along⟩ := parts desc _ branch rfl taken frames t
        exact ⟨more, .branch v.isTruthy found hc taken tour, along⟩
      | none =>
        have absent : Named.get? desc "else" = none := by
          cases truthy : v.isTruthy with
          | true => simp [truthy, hy] at taken
          | false => simpa [truthy] using taken
        exact ⟨[], by simpa using Tour.neither found hc absent, .pure none⟩
  · exact toured_of_faulty found faulty

theorem toured_array (known : h.commands.lookup "$array" = some .array)
    (found : Fields.command? fields = some ("$array", body)) :
    Toured h ctx frames (.obj fields) s := by
  obtain ⟨desc, c, element, rfl, hc, he⟩ | ⟨message, faulty⟩ := array_or_faulty known body
  · unfold Toured
    rw [interpolate_array found known hc he, Count.resolve, bind_assoc]
    refine (Along.count (ctx.within frames) _).bind_some ?_ fun v t _ => ?_
    · exact ⟨[], .copies (n := 0) found hc he .nil⟩
    · cases size : Count.size v >>= Count.check with
      | error f => exact ⟨[.refuse f], .uncounted found hc he size, .refuse f⟩
      | ok n =>
        obtain ⟨more, tours, along⟩ := Along.turns (List.range n) .copy
          (parts desc "element" element rfl he) frames t
        exact ⟨more, .copies found hc he tours, along.map _⟩
  · exact toured_of_faulty found faulty

omit parts in
/-- A table that is read, or not, and the elements that it has. -/
theorem toured_of_read {desc : Fields} {file : String} {element : Json} (frames : List Frame)
    (found : Fields.command? fields = some ("$csv", .obj desc))
    (named : desc.get? "file" = some (.str file)) (given : desc.get? "element" = some element)
    (known : ∀ frames s, Toured h ctx frames element s) (path : String) (s : State) :
    ∃ more,
      Tour h ctx frames (.obj fields)
        ((ctx.within frames).evaluations (Piece.codes (Piece.ofText file)) ++ more) ∧
      Along h ctx.request s more (h.readFile path >>= fun content =>
        (fun outs => some (Json.arr (slots outs))) <$> interpolateAll h
          (((RowLayout.ofFields desc).items content).map fun row =>
            ((ctx.within frames).bindAll row, element))) := by
  have reads : Along h ctx.request s [.read path] (h.readFile path) := .single (.read path) rfl
  cases read : h.file path with
  | error f =>
    refine ⟨[.read path], .unread found named given read, reads.stopped (f := f) ?_⟩
    rw [outcome_readFile, read]
  | ok content =>
    rcases table : (RowLayout.ofFields desc).table content with ⟨names, rows⟩
    have items : (RowLayout.ofFields desc).items content = rows.map (Row.locals names) := by
      simp only [RowLayout.items, table]
    obtain ⟨more, tours, along⟩ := Along.turns rows (.row names) known frames
      (s.record (.read path))
    refine ⟨.read path :: more, .rows found named given read table tours, reads.bind ?_⟩
    intro content' t opened
    rw [outcome_readFile, read] at opened
    cases opened
    rw [items, List.map_map]
    exact along.map _

theorem toured_csv (known : h.commands.lookup "$csv" = some .csv)
    (found : Fields.command? fields = some ("$csv", body)) :
    Toured h ctx frames (.obj fields) s := by
  obtain ⟨desc, file, element, rfl, hf, he⟩ | ⟨message, faulty⟩ := csv_or_faulty known body
  · unfold Toured
    rw [interpolate_csv found known hf he]
    have opened := toured_of_read frames found hf he (parts desc "element" element rfl he)
    refine (Along.expandPieces (ctx.within frames) _).bind_some ?_ fun path t _ => ?_
    · obtain ⟨more, tour, -⟩ := opened "" s
      exact ⟨more, tour⟩
    · exact opened path.display t
  · exact toured_of_faulty found faulty

end Commands

/-- The expansion of a value goes along a tour of it, within any turns and from any state: by induction on the
size, since a command expands values two levels below it. -/
theorem toured {h : Host} (stock : h.commands = Commands.builtIn) (v : Json) :
    ∀ frames s, Toured h ctx frames v s := by
  induction v using Json.size_induction with
  | step v ih =>
  intro frames s
  cases v with
  | str text =>
    refine ⟨_, .text, ?_⟩
    rw [interpolate_str]
    exact (Along.expandPieces (ctx.within frames) _).map _
  | arr vs =>
    obtain ⟨acts, tours, along⟩ := Along.interpolateAll (fun v => (frames, v))
      (fun x member => ih x (Json.sizeOf_item_lt member) frames) s
    refine ⟨acts, .items tours, ?_⟩
    rw [interpolate_arr]
    exact along.map _
  | obj fields =>
    cases hc : Fields.command? fields with
    | none =>
      obtain ⟨acts, tours, along⟩ := Along.interpolateAll
        (fun (field : String × Json) => (frames, field.2))
        (fun x member => ih x.2 (Json.sizeOf_field_lt member) frames) s
      refine ⟨acts, .fields hc tours, ?_⟩
      rw [interpolate_obj hc]
      exact along.map _
    | some command =>
      obtain ⟨name, body⟩ := command
      have parts (desc : Fields) (key : String) (w : Json) (described : body = .obj desc)
          (held : desc.get? key = some w) : ∀ frames s, Toured h ctx frames w s := by
        subst described
        exact ih w (Json.sizeOf_described_lt hc held)
      cases known : h.commands.lookup name with
      | none =>
        refine ⟨[], .unknown hc known, ?_⟩
        rw [interpolate_unknown hc known]
        exact .pure _
      | some command =>
        obtain ⟨rfl, rfl⟩ | ⟨rfl, rfl⟩ | ⟨rfl, rfl⟩ | ⟨rfl, rfl⟩ :=
          Commands.builtIn_cases (stock ▸ known)
        · exact toured_array parts known hc
        · exact toured_csv parts known hc
        · exact toured_exec known hc
        · exact toured_if parts known hc
  | _ => exact ⟨[], .scalar trivial, .pure _⟩

/-- Locals are scoped by the template. Every snippet sees those of the context, with what is bound by
the turns that it stands within laid over them; the innermost turn that binds a name says what it
stands for. Whether the expansion succeeds or fails, nothing of its turns is left in the context. -/
theorem interpolate_locals (h : Host) (ctx : Context)
    (stock : h.commands = Commands.builtIn) (once : ctx.locals.keys.Nodup) (v : Json) (s : State) :
    Toured h ctx [] v s ∧
    (∀ r t, (interpolate h ctx v).outcome s = (r, t) →
      (∀ w, Toured h ctx [] w t) ∧
      ∀ name, name ∉ "data" :: handles →
        (bindingsFor ctx t).reverse.lookup name = (bindingsFor ctx s).reverse.lookup name) ∧
    ∀ frames t name, (bindingsFor (ctx.within frames) t).reverse.lookup name =
      ((frames.reverse.findSome? (·.bindings.lookup name)).or (ctx.locals.get? name)).or
        ((bindingsFor { ctx with locals := [] } t).reverse.lookup name) :=
  ⟨toured stock v [] s,
    fun _ t _ => ⟨fun w => toured stock w [] t, fun _ other => lookup_bindingsFor_other ctx other⟩,
    fun _ _ _ => lookup_within once⟩

/-- Two elements, each with an element of its own; `i` stands before, in, and after them. -/
def nestedCopies : Json :=
  .arr [.str "$\x7bi\x7d",
    .obj [("$array", .obj [("count", .str "n"),
      ("element", .arr [.str "$\x7bi\x7d",
        .obj [("$array", .obj [("count", .int 1), ("element", .str "$\x7bi\x7d")])]])])],
    .str "$\x7bi\x7d"]

theorem interpolate_locals_nested :
    let outer : Context := { locals := [("i", .str "outer"), ("n", .int 2)] }
    (((interpolate recalling outer nestedCopies).outcome {}).1.toOption.join.any (·.same
        (.arr [.str "outer", .arr [.arr [.int 0, .arr [.int 0]], .arr [.int 1, .arr [.int 0]]],
          .str "outer"]))) = true ∧
      Toured recalling outer [] nestedCopies {} ∧
      (bindingsFor (outer.within [.copy 1, .copy 0]) {}).reverse.lookup "i" = some (.int 0) ∧
      (bindingsFor (outer.within [.copy 1]) {}).reverse.lookup "n" = some (.int 2) := by
  intro outer
  obtain ⟨here, -, seen⟩ := interpolate_locals recalling outer rfl (by decide) nestedCopies {}
  exact ⟨by decide +kernel, here, (seen [.copy 1, .copy 0] {} "i").trans (by rfl),
    (seen [.copy 1] {} "n").trans (by rfl)⟩

end RuleService
