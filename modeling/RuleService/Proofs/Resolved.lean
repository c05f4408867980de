import RuleService.Proofs.Placeholders
import RuleService.Proofs.Repetition
import RuleService.Proofs.Routing
import RuleService.Proofs.Sending

namespace RuleService

open Effect

/-- A value in which nothing is left to expand: in no object, at any depth, a key begins with `$`, and no
text has a placeholder. -/
inductive Json.Resolved : Json → Prop
  | scalar {v : Json} (scalar : IsScalar v) : v.Resolved
  | text {text : String}
      (none : ∀ before code after, ¬ Placeholder text.toList before code after) :
      (Json.str text).Resolved
  | list {vs : List Json} (each : ∀ v ∈ vs, v.Resolved) : (Json.arr vs).Resolved
  | object {fields : Fields} (plain : ∀ key v, (key, v) ∈ fields → ∀ rest, key ≠ "$" ++ rest)
      (each : ∀ key v, (key, v) ∈ fields → v.Resolved) : (Json.obj fields).Resolved

section Verbatim

variable {h : Host} {ctx : Context} {s : State}

/-- A text without a placeholder stands for itself. -/
theorem expand_plain {text : String}
    (none : ∀ before code after, ¬ Placeholder text.toList before code after) :
    (expand h.engine ctx text).outcome s = (.ok (.str text), s) := by
  have mixed (code : List Char) : ¬ FirstPlaceholder text.toList [] code [] :=
    fun first => none _ _ _ first.toPlaceholder
  obtain ⟨codes, r, t, fills, spliced⟩ := fills_splice h.engine ctx text.toList "" s
  obtain ⟨-, rfl, rfl⟩ := fills.unique (.plain none)
  rw [expand, Piece.ofText, expandPieces_mixed mixed, outcome_map, spliced]
  simp [Except.map]

/-- Parts that stand for themselves are expanded to themselves, one after the other. -/
theorem interpolateAll_verbatim {parts : List (Context × Json)}
    (each : ∀ part ∈ parts, ∀ s, (interpolate h part.1 part.2).outcome s = (.ok (some part.2), s)) :
    (interpolateAll h parts).outcome s = (.ok (parts.map fun part => some part.2), s) := by
  induction parts with
  | nil => rfl
  | cons part parts ih =>
    have rest := ih fun other listed => each other (by simp [listed])
    rw [interpolateAll_cons, outcome_bind, each part (by simp)]
    simp only [outcome_map, rest]
    rfl

theorem slots_some (vs : List Json) : slots (vs.map some) = vs := by
  simp [slots, Function.comp_def]

theorem kept_some (fields : Fields) : kept fields (fields.map fun field => some field.2) = fields := by
  induction fields with
  | nil => rfl
  | cons field fields ih =>
    simp only [kept, List.map_cons, List.zip_cons_cons, List.filterMap_cons, Option.map_some]
    exact congrArg (field :: ·) ih

theorem interpolate_resolved {v : Json} (resolved : v.Resolved) :
    (interpolate h ctx v).outcome s = (.ok (some v), s) := by
  induction resolved generalizing ctx s with
  | scalar scalar => cases scalar <;> rfl
  | text none =>
    rw [interpolate_str, outcome_map, expand_plain none]
    rfl
  | @list vs each ih =>
    have items : (interpolateAll h (vs.map fun v => (ctx, v))).outcome s = (.ok (vs.map some), s) := by
      rw [interpolateAll_verbatim]
      · simp
      · rintro part listed s
        obtain ⟨v, member, rfl⟩ := List.mem_map.mp listed
        exact ih v member
    rw [interpolate_arr, outcome_map, items]
    simp [Except.map, slots_some]
  | @object fields plain each ih =>
    have noCommand : Fields.command? fields = none := by
      rw [Fields.command?, List.find?_eq_none]
      rintro ⟨key, v⟩ member begins
      obtain ⟨rest, eq⟩ := (skipped_iff key).mp begins
      exact plain key v member rest eq
    have values : (interpolateAll h (fields.map fun field => (ctx, field.2))).outcome s =
        (.ok (fields.map fun field => some field.2), s) := by
      rw [interpolateAll_verbatim]
      · simp
      · rintro part listed s
        obtain ⟨⟨key, v⟩, member, rfl⟩ := List.mem_map.mp listed
        exact ih key v member
    rw [interpolate_obj noCommand, outcome_map, values]
    simp [Except.map, kept_some]

end Verbatim

/-- The state after a value is sent as the document at a path. -/
def State.sentDocument (s : State) (path : String) (v : Json) : State :=
  { s.record (.read path) with
    response :=
      { s.response.setDefaultHeader contentTypeName ContentType.json with body := .str v.render } }

theorem perform_resolved {h : Host} {ctx : Context} {path content : String} {v : Json} {s : State}
    (resolved : v.Resolved) (kind : Ending.isDocument path) (read : h.file path = .ok content)
    (parsed : Json.parse content = .ok v) :
    (Ending.perform h ctx (.file path)).outcome s = (.ok (), s.sentDocument path v) := by
  have told : (Ending.fileText h ctx path (foldName (Path.extension path)) content).outcome
      (s.record (.read path)) = (.ok v.render, s.record (.read path)) := by
    rw [Ending.fileText_document path content kind, parsed]
    simp only [interpolateDocument, outcome_map, outcome_bind, interpolate_resolved resolved]
    rfl
  change (Ending.sendFile h ctx path).outcome s = _
  rw [Ending.sendFile, outcome_bind, outcome_readFile, read]
  simp only [outcome_bind, told, outcome_reply]
  rw [show foldName (Path.extension path) = "json" from kind]
  rfl

/-- What holds nothing to expand is unchanged: its expansion is the value itself, with its keys in their
order, and nothing runs, nothing is read and nothing changes. So a document that holds such a value is sent
as that value printed: reading the file is all that is done, and of the response only the body and, unless
there is one, the type are set. -/
theorem interpolate_resolved_unchanged {v : Json} (resolved : v.Resolved) (h : Host) (ctx : Context) (s : State) :
    (interpolate h ctx v).outcome s = (.ok (some v), s) ∧
    ∀ path content, Ending.isDocument path → h.file path = .ok content → Json.parse content = .ok v →
      (Ending.perform h ctx (.file path)).outcome s = (.ok (), s.sentDocument path v) ∧
      ∀ (rule : Rule) made r, rule.after = none → Drafted h ctx rule r made s →
        (Recipe.ofJson made).ending = .file path →
        dispatchRule h ctx rule r = s.sentDocument path v ∧
        (s.response.redirect = none →
          (Http.Reply.ofResponse (dispatchRule h ctx rule r).response).body = v.render) := by
  refine ⟨interpolate_resolved resolved, fun path content kind read parsed => ?_⟩
  have performed : (Ending.perform h ctx (.file path)).outcome s = (.ok (), s.sentDocument path v) :=
    perform_resolved resolved kind read parsed
  refine ⟨performed, fun rule made r last drafted asks => ?_⟩
  have ran : (rule.run h ctx).outcome r = (.ok (), s.sentDocument path v) := by
    rw [← asks] at performed
    refine Rule.run_ok_iff.mpr ⟨made, s, _, drafted, performed, ?_⟩
    rw [last]
    rfl
  rw [dispatchRule_of_ok ran]
  refine ⟨rfl, fun direct => (Http.Reply.body_eq_iff rfl).mpr (.inl ?_)⟩
  exact (Response.setDefaultHeader_redirect ..).trans direct

/-- A text with a placeholder that is not closed. -/
def halfOpened : String := "$\x7bx"

/-- A value with such a text, and keys that are not in the order of the alphabet. -/
def inert : Json := .obj [("b", .arr [.str halfOpened]), ("a$", .null)]

theorem inert_resolved : inert.Resolved := by
  have plain : hasPlaceholder halfOpened = false := by decide
  have text : (Json.str halfOpened).Resolved := .text fun before code after placed => by
    rw [hasPlaceholder, Piece.ofText, (Piece.any_isCode_iff _).mpr ⟨before, code, after, placed⟩] at plain
    cases plain
  have begins : ∀ field ∈ [("b", Json.arr [.str halfOpened]), ("a$", .null)],
      (field.1.toList.head? == some '$') = false := by
    simp
  refine .object (fun key v listed rest eq => ?_) fun key v listed => ?_
  · have aside := (skipped_iff key).mpr ⟨rest, eq⟩
    rw [begins _ listed] at aside
    cases aside
  · simp only [List.mem_cons, List.not_mem_nil, or_false, Prod.mk.injEq] at listed
    rcases listed with ⟨-, rfl⟩ | ⟨-, rfl⟩
    · exact .list (by simpa using text)
    · exact .scalar .null

/-- A rule that sends a document. -/
def documented : Rule where
  definition := [("response", .str "a.json")]
  condition := none
  before := none
  after := none

theorem interpolate_resolved_unchanged_inert :
    let h : Host :=
      { recalling with file := fun _ => .ok "\x7b\"b\": [\"$\x7bx\"], \"a$\": null\x7d" }
    inert.Resolved ∧ (interpolate h {} inert).outcome {} = (.ok (some inert), {}) ∧
    (Http.Reply.ofResponse (dispatchRule h {} documented {}).response).body =
      "\x7b\"b\":[\"$\x7bx\"],\"a$\":null\x7d" := by
  intro h
  have unchanged := interpolate_resolved_unchanged inert_resolved h {} {}
  have prepared : (Rule.runScript h {} documented.before).outcome {} = (.ok (), {}) := rfl
  have expanded : (interpolateDocument h {} documented.template).outcome {} =
      (.ok (.obj documented.definition), {}) := by rfl
  have parsed : Json.parse "\x7b\"b\": [\"$\x7bx\"], \"a$\": null\x7d" = .ok inert := by
    cbv
  have printed : inert.render = "\x7b\"b\":[\"$\x7bx\"],\"a$\":null\x7d" := by cbv
  have kind : foldName (Path.extension "a.json") = "json" := by decide +kernel
  have asks : (Recipe.ofJson (.obj documented.definition)).ending = .file "a.json" := by
    decide +kernel
  have sent := (unchanged.2 "a.json" _ kind rfl parsed).2 documented _ {} rfl
    (.intro prepared expanded) asks
  exact ⟨inert_resolved, unchanged.1, (sent.2 rfl).trans printed⟩

end RuleService
