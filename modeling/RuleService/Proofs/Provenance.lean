import RuleService.Proofs.Confinement
import RuleService.Proofs.Stages

namespace RuleService

/-- The codes in a file that is sent. Only pages and documents have any. -/
inductive FileSnippet (h : Host) (path code : String) : Prop
  | page {content : String} (read : h.file path = .ok content) (kind : Ending.isPage path)
      (placed : .code code ∈ Piece.ofText content)
  | document {content : String} {v : Json} (read : h.file path = .ok content)
      (kind : Ending.isDocument path) (parsed : Json.parse content = .ok v)
      (held : v.Snippet code)

/-- The codes of a rule that is carried out, and of the file that it sends. -/
inductive RuleSnippet (h : Host) (ctx : Context) (rule : Rule) (s : State) (code : String) : Prop
  | before {script : Script} (held : rule.before = some script)
      (listed : .str code ∈ script.items)
  | template (held : rule.template.Snippet code)
  | file {made : Json} {path : String} {t : State} (drafted : Drafted h ctx rule s made t)
      (sent : (Recipe.ofJson made).ending = .file path) (held : FileSnippet h path code)
  | after {script : Script} (held : rule.after = some script) (listed : .str code ∈ script.items)

/-- The codes of the snippets that may run for a request. -/
inductive RequestSnippet (h : Host) (ctx : Context) (rules : List Rule) (s : State)
    (code : String) : Prop
  | condition {rule : Rule} (listed : rule ∈ rules) (asked : rule.condition = some code)
  | chosen {rule : Rule} {t : State} (chosen : Chosen h ctx rules s rule t)
      (held : RuleSnippet h ctx rule t code)

/-- The template of a rule is its definition without the fields that hold code. -/
theorem Rule.mem_template {rule : Rule} {key : String} {v : Json} :
    (∃ fields, rule.template = .obj fields ∧ (key, v) ∈ fields) ↔
      (key, v) ∈ rule.definition ∧ key ∉ Rule.codeFields := by
  simp [Rule.template]

namespace Traced

variable {h : Host} {ctx : Context} {Code : String → Prop} {s : State}

theorem resolve {rules : List Rule}
    (allowed : ∀ rule ∈ rules, ∀ code, rule.condition = some code → Code code) (place : Nat) :
    Traced h ctx.request (Act.Serves Code) s fun engine =>
      Rule.resolve engine ctx place rules := by
  induction rules generalizing place s with
  | nil => exact .pure none
  | cons rule rules ih =>
    have applies : Traced h ctx.request (Act.Expands Code) s fun engine =>
        rule.applies engine ctx := by
      unfold Rule.applies
      split
      · exact .pure true
      · next code asked => exact (evaluate code (allowed rule (by simp) code asked)).map _
    refine (applies.serves fun _ hc => hc).bind fun yes t _ => ?_
    cases yes with
    | true => exact .pure _
    | false => exact ih (fun rule hr => allowed rule (by simp [hr])) (place + 1)

theorem runScript {held : Option Script}
    (allowed : ∀ script, held = some script → ∀ code, .str code ∈ script.items → Code code) :
    Traced h ctx.request (Act.Serves Code) s fun engine =>
      Rule.runScript { h with engine } ctx held := by
  cases held with
  | none => exact .pure ()
  | some code => exact (script (allowed code rfl)).serves fun _ hc => hc

variable (stock : h.commands = Commands.builtIn)

include stock

theorem interpolateDocument (v : Json) :
    Traced h ctx.request (Act.Expands v.Snippet) s fun engine =>
      interpolateDocument { h with engine } ctx v :=
  (interpolate_part stock v .whole ctx rfl s).bind fun _ _ _ => .pure _

theorem sendFile (path : String) :
    Traced h ctx.request (Act.Serves (FileSnippet h path)) s fun engine =>
      Ending.sendFile { h with engine } ctx path := by
  refine (readFile path trivial).bind fun content t hr => ?_
  obtain ⟨read, -⟩ : h.file path = .ok content ∧ _ := by simpa [outcome_readFile] using hr
  refine Traced.bind ?_ fun text u _ => reply _ trivial
  unfold Ending.fileText
  split
  · next isPage =>
    have kind : Ending.isPage path := by simpa [Ending.isPage] using isPage
    exact ((expandPieces fun code placed => placed).map _).serves fun code placed =>
      .page read kind placed
  · split
    · next isDocument =>
      have kind : Ending.isDocument path := by simpa [Ending.isDocument] using isDocument
      cases parsed : Json.parse content with
      | ok v =>
        exact ((interpolateDocument stock v).map _).serves fun code held =>
          .document read kind parsed held
      | error => exact refuse _ fun _ same => by cases same
    · exact .pure content

/-- A rule that is carried out runs its statements and the codes of its template and its file. -/
theorem run (rule : Rule) :
    Traced h ctx.request (Act.Serves (RuleSnippet h ctx rule s)) s fun engine =>
      rule.run { h with engine } ctx := by
  refine (runScript fun script held code listed => .before held listed).bind
    fun _ t prepared => ?_
  refine ((interpolateDocument stock _).serves fun code held => .template held).bind
    fun v u expanded => ?_
  have drafted : Drafted h ctx rule s v _ := .intro prepared expanded
  refine (reply _ trivial).bind fun _ w headers => ?_
  obtain rfl : _ = w := congrArg Prod.snd headers
  refine Traced.bind ?_ fun _ _ _ => runScript fun script held code listed => .after held listed
  cases he : (Recipe.ofJson v).ending with
  | file path =>
    exact (sendFile stock path).mono fun act => Act.Serves.mono fun code held =>
      .file drafted he held
  | _ => exact reply _ trivial

theorem runFirst (ctx : Context) (rules : List Rule) (s : State) :
    Traced h ctx.request (Act.Serves (RequestSnippet h ctx rules s)) s fun engine =>
      Rule.runFirst { h with engine } ctx rules := by
  have conditions : Traced h ctx.request (Act.Serves (RequestSnippet h ctx rules s)) s
      fun engine => Rule.resolve engine ctx 0 rules :=
    resolve (fun rule listed code asked => .condition listed asked) 0
  refine conditions.bind fun found t hr => ?_
  match found with
  | none => exact refuse _ fun _ same => by cases same
  | some (place, rule) =>
    have chosen : Chosen h ctx rules s rule t := (Rule.resolve_some_iff 0).mp ⟨place, hr⟩
    exact (run stock rule).mono fun act => Act.Serves.mono fun code held => .chosen chosen held

end Traced

theorem snippets_answered (work : Effect Unit) (s : State) :
    (answered work s).snippets = (work.outcome s).2.snippets := by
  rw [answered, Effect.outcome]
  split
  · next ended => rw [ended]
  · next ended =>
    rw [ended]
    rfl

theorem answered_congr {work other : Effect Unit} {s : State}
    (same : work.outcome s = other.outcome s) : answered work s = answered other s := by
  rw [Effect.outcome, Effect.outcome] at same
  rw [answered, answered, same]

/-- Data is never run. The snippets that the expansion of a value runs stand in texts of that value,
and those that run for a request stand in its rules and in the file it is served; no other behaviour
of the engine has any influence. -/
theorem dispatch_snippets (h : Host) (ctx : Context) (stock : h.commands = Commands.builtIn) :
    (∀ v s,
      (∃ codes, ((interpolate h ctx v).outcome s).2.snippets = s.snippets ++ codes ∧
        ∀ code ∈ codes, v.Snippet code ∧
          ∃ text, v.Part (.str text) ∧ ∃ before after, text = before ++ code ++ after) ∧
      ∀ engine, (∀ code, v.Snippet code → h.engine.AgreeOn engine code) →
        (interpolate { h with engine } ctx v).outcome s = (interpolate h ctx v).outcome s) ∧
    (∀ (rule : Rule) key v, (∃ fields, rule.template = .obj fields ∧ (key, v) ∈ fields) ↔
      (key, v) ∈ rule.definition ∧ key ∉ ["condition", "preScript", "postScript"]) ∧
    ∀ rules s,
      (∃ codes, (dispatch h ctx rules s).snippets = s.snippets ++ codes ∧
        ∀ code ∈ codes, RequestSnippet h ctx rules s code) ∧
      ∀ engine, (∀ code, RequestSnippet h ctx rules s code → h.engine.AgreeOn engine code) →
        dispatch { h with engine } ctx rules s = dispatch h ctx rules s := by
  refine ⟨?_, fun _ _ _ => Rule.mem_template, ?_⟩
  · intro v s
    have traced := Traced.interpolate_part stock v .whole ctx rfl s
    have served := traced.serves fun _ hc => hc
    obtain ⟨codes, ran, held⟩ := served.snippets
    refine ⟨⟨codes, ran, fun code hc => ?_⟩, fun engine agree => served.outcome_eq agree⟩
    exact ⟨held code hc, (held code hc).literal⟩
  · intro rules s
    have traced := Traced.runFirst stock ctx rules s
    refine ⟨?_, fun engine agree => answered_congr (traced.outcome_eq agree)⟩
    rw [dispatch, snippets_answered]
    exact traced.snippets

/-- A host whose engine answers with what looks like placeholders. -/
def echoing : Host where
  engine :=
    { expression code _ :=
        { outcome := .ok (some (.str ("$\x7b" ++ code ++ "()\x7d"))), binding _ := none }
      script _ _ := { outcome := .ok none, binding _ := none } }
  file path := .error (.fileNotFound path)

def greeting : Rule where
  definition := [("responseText", .str "Hi $\x7bname\x7d")]
  condition := none
  before := none
  after := none

theorem dispatch_snippets_echoing :
    echoing.commands = Commands.builtIn ∧
    (dispatch echoing {} [greeting] {}).response.body.display = "Hi $\x7bname()\x7d" ∧
    (dispatch echoing {} [greeting] {}).snippets = ["name"] ∧
    ∃ codes, (dispatch echoing {} [greeting] {}).snippets = State.snippets {} ++ codes ∧
      ∀ code ∈ codes, RequestSnippet echoing {} [greeting] {} code := by
  refine ⟨rfl, by decide +kernel, by decide +kernel, ?_⟩
  exact ((dispatch_snippets echoing {} rfl).2.2 [greeting] {}).1

end RuleService
