import RuleService.Proofs.Course
import RuleService.Proofs.Provenance

namespace RuleService

open Effect

/-- A file that a rule can send. -/
inductive CanSend (h : Host) (rule : Rule) (path : String) : Prop
  | intro {engine : Engine} {ctx : Context} {s t : State} {made : Json}
      (expanded :
        (interpolateDocument { h with engine } ctx rule.template).outcome s = (.ok made, t))
      (sent : (Recipe.ofJson made).ending = .file path)

/-- The snippets of the rules of a route, with those in the files they can send. -/
inductive RouteSnippet (h : Host) (rules : List Rule) (code : String) : Prop
  | condition {rule : Rule} (listed : rule ∈ rules) (asked : rule.condition = some code)
  | before {rule : Rule} {script : Script} (listed : rule ∈ rules)
      (held : rule.before = some script) (item : .str code ∈ script.items)
  | template {rule : Rule} (listed : rule ∈ rules) (held : rule.template.Snippet code)
  | file {rule : Rule} {path : String} (listed : rule ∈ rules) (sends : CanSend h rule path)
      (held : FileSnippet h path code)
  | after {rule : Rule} {script : Script} (listed : rule ∈ rules)
      (held : rule.after = some script) (item : .str code ∈ script.items)

/-- The snippets that a course may come to, whatever those before it give. -/
inductive Course.Reaches {α : Type} (h : Host) : Course α → String → Prop
  | evaluate {code : String} {locals : Fields} {next : Json → Course α} :
      Reaches h (.evaluate code locals next) code
  | execute {code : String} {locals : Fields} {next : Course α} :
      Reaches h (.execute code locals next) code
  | evaluated {code later : String} {locals : Fields} {next : Json → Course α} (v : Json)
      (rest : Reaches h (next v) later) : Reaches h (.evaluate code locals next) later
  | executed {code later : String} {locals : Fields} {next : Course α}
      (rest : Reaches h next later) : Reaches h (.execute code locals next) later
  | read {path content later : String} {next : String → Course α} (found : h.file path = .ok content)
      (rest : Reaches h (next content) later) : Reaches h (.read path next) later
  | reply {change : Response → Response} {later : String} {next : Course α}
      (rest : Reaches h next later) : Reaches h (.reply change next) later

/-- A bag that holds what the next expressions are to give. -/
def prompts (answers : List Json) : Fields := [("answers", .arr answers)]

/-- An engine that takes the value of an expression from the bag. It takes a course wherever other answers can
take it. -/
def prompted : Engine where
  expression _ bindings :=
    match bindings.lookup "data" with
    | some (.obj [(_, .arr (v :: rest))]) =>
      { outcome := .ok (some v)
        binding name := if name == "data" then some (some (.obj (prompts rest))) else none }
    | _ => { outcome := .ok none, binding _ := none }
  script _ _ := { outcome := .ok none, binding _ := none }

theorem outcome_evaluate_prompted (ctx : Context) (code : String) (v : Json) (answers : List Json)
    {s : State} (told : s.data = prompts (v :: answers)) :
    (evaluate prompted ctx code).outcome s =
      (.ok v, { s with data := prompts answers, journal := .evaluated code ctx.locals :: s.journal }) := by
  obtain ⟨data, response, journal⟩ := s
  obtain rfl : data = _ := told
  rfl

theorem outcome_execute_prompted (ctx : Context) (code : String) (s : State) :
    (execute prompted ctx code).outcome s =
      (.ok (), { s with journal := .executed code ctx.locals :: s.journal }) := rfl

namespace Course

variable {α β : Type} {h : Host} {request : Request} {code : String}

/-- What comes later removes no snippet from the journal. -/
theorem snippets_bind (work : Effect α) {next : α → Effect β}
    (later : ∀ a t, t.snippets <+: ((next a).outcome t).2.snippets) (s : State) :
    (work.outcome s).2.snippets <+: ((work >>= next).outcome s).2.snippets := by
  rw [outcome_bind]
  rcases work.outcome s with ⟨r, t⟩
  cases r with
  | error f => exact List.prefix_rfl
  | ok a => exact later a t

theorem snippets_run (c : Course α) (s : State) :
    s.snippets <+: ((c.run h request).outcome s).2.snippets := by
  induction c generalizing s with
  | done a => exact List.prefix_rfl
  | failed f => exact List.prefix_rfl
  | evaluate code locals next ih =>
    refine List.IsPrefix.trans ?_ (snippets_bind _ ih s)
    rw [snippets_evaluate]
    exact List.prefix_append _ _
  | execute code locals next ih =>
    refine List.IsPrefix.trans ?_ (snippets_bind _ (fun _ => ih) s)
    rw [snippets_execute]
    exact List.prefix_append _ _
  | read path next ih =>
    refine List.IsPrefix.trans ?_ (snippets_bind _ ih s)
    rw [outcome_readFile, State.snippets_record]
    exact List.prefix_append _ _
  | reply change next ih => exact snippets_bind (Effect.reply change) (fun _ => ih) s

/-- Whatever snippet a course can come to, it runs at one go with an engine that is prompted: the answers on
the way are put in front of those for the rest. -/
theorem Reaches.runs {c : Course α} (reaches : c.Reaches h code) (request : Request) :
    ∃ answers, ∀ s : State, s.data = prompts answers →
      code ∈ ((c.run { h with engine := prompted } request).outcome s).2.snippets := by
  induction reaches with
  | @evaluate code locals next =>
    refine ⟨[], fun s _ => (snippets_bind _ (fun a => snippets_run (next a)) s).subset ?_⟩
    rw [snippets_evaluate]
    simp
  | @execute code locals next =>
    refine ⟨[], fun s _ => (snippets_bind _ (fun _ => snippets_run next) s).subset ?_⟩
    rw [snippets_execute]
    simp
  | evaluated v rest ih =>
    obtain ⟨answers, ran⟩ := ih
    refine ⟨v :: answers, fun s told => ?_⟩
    rw [run, outcome_bind, outcome_evaluate_prompted _ _ _ _ told]
    exact ran _ rfl
  | executed rest ih =>
    obtain ⟨answers, ran⟩ := ih
    refine ⟨answers, fun s told => ?_⟩
    rw [run, outcome_bind, outcome_execute_prompted]
    exact ran _ told
  | @read path content later next found rest ih =>
    obtain ⟨answers, ran⟩ := ih
    refine ⟨answers, fun s told => ?_⟩
    rw [run, outcome_bind, outcome_readFile, found]
    exact ran _ told
  | reply rest ih =>
    obtain ⟨answers, ran⟩ := ih
    refine ⟨answers, fun s told => ?_⟩
    rw [run, outcome_bind, outcome_reply]
    exact ran _ told

/-- A step leaves no more than there was to come to. -/
theorem Reaches.of_step {c rest : Course α} {work : Effect (Course α)} {s s' : State}
    (next : c.step h request = some work) (left : work.outcome s = (.ok rest, s'))
    (reaches : rest.Reaches h code) : c.Reaches h code := by
  cases c with
  | done a => cases next
  | failed f => cases next
  | evaluate code locals next' =>
    obtain rfl := Option.some.inj next
    obtain ⟨v, -, rfl⟩ := map_ok_iff.mp left
    exact .evaluated v reaches
  | execute code locals next' =>
    obtain rfl := Option.some.inj next
    obtain ⟨-, -, rfl⟩ := map_ok_iff.mp left
    exact .executed reaches
  | read path next' =>
    obtain rfl := Option.some.inj next
    obtain ⟨content, found, rfl⟩ := map_ok_iff.mp left
    rw [outcome_readFile] at found
    exact .read (congrArg Prod.fst found) reaches
  | reply change next' =>
    obtain rfl := Option.some.inj next
    obtain ⟨-, -, rfl⟩ := map_ok_iff.mp left
    exact .reply reaches

/-- What a snippet makes of the bag. -/
inductive BagAfter (h : Host) (request : Request) (code : String) (s : State) (data : Fields) : Prop
  | evaluated (locals : Fields)
      (eq : data = ((RuleService.evaluate h.engine { request, locals } code).outcome s).2.data)
  | executed (locals : Fields)
      (eq : data = ((RuleService.execute h.engine { request, locals } code).outcome s).2.data)

/-- A step that is no snippet leaves the bag alone. -/
theorem data_step {c : Course α} {work : Effect (Course α)} {s : State}
    (next : c.step h request = some work) :
    (work.outcome s).2.data = s.data ∨
      ∃ code, c.Reaches h code ∧ BagAfter h request code s (work.outcome s).2.data := by
  cases c with
  | done a => cases next
  | failed f => cases next
  | evaluate code locals next' =>
    obtain rfl := Option.some.inj next
    rw [outcome_map]
    exact .inr ⟨code, .evaluate, .evaluated locals rfl⟩
  | execute code locals next' =>
    obtain rfl := Option.some.inj next
    rw [outcome_map]
    exact .inr ⟨code, .execute, .executed locals rfl⟩
  | read path next' =>
    obtain rfl := Option.some.inj next
    rw [outcome_map, outcome_readFile]
    exact .inl rfl
  | reply change next' =>
    obtain rfl := Option.some.inj next
    exact .inl rfl

end Course

/-- What runs for a request, with whatever engine, stands in the rules of its route. -/
theorem RequestSnippet.route {h : Host} {engine : Engine} {ctx : Context} {rules : List Rule}
    {s : State} {code : String} (given : RequestSnippet { h with engine } ctx rules s code) :
    RouteSnippet h rules code := by
  cases given with
  | condition listed asked => exact .condition listed asked
  | @chosen rule t chosen held =>
    have listed : rule ∈ rules := by
      obtain ⟨split, -, -⟩ := chosen
      simp [split]
    cases held with
    | before held item => exact .before listed held item
    | template held => exact .template listed held
    | file drafted sent held =>
      obtain ⟨-, expanded⟩ := drafted
      refine .file listed ⟨expanded, sent⟩ ?_
      cases held with
      | page read kind placed => exact .page read kind placed
      | document read kind parsed held => exact .document read kind parsed held
    | after held item => exact .after listed held item

/-- The course of a request comes to no snippets but those of the rules of its route. -/
theorem Course.reaches_route {h : Host} (stock : h.commands = Commands.builtIn) {ctx : Context}
    {rs : List Rule} {code : String} (reaches : (Course.rules ctx rs).Reaches h code) :
    RouteSnippet h rs code := by
  obtain ⟨answers, ran⟩ := reaches.runs ctx.request
  let start : State := { data := prompts answers }
  have atOneGo : (Course.rules ctx rs).run { h with engine := prompted } ctx.request =
      Rule.runFirst { h with engine := prompted } ctx rs :=
    run_rules (h := { h with engine := prompted }) stock rs
  have listed := ran start rfl
  rw [atOneGo] at listed
  have traced := Traced.runFirst (h := { h with engine := prompted }) stock ctx rs start
  obtain ⟨codes, journal, given⟩ := traced.snippets
  rw [journal] at listed
  exact (given code (by simpa [start, State.snippets] using listed)).route

end RuleService
