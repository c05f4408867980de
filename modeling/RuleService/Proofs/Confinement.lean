import RuleService.Proofs.Parts
import RuleService.Proofs.Pieces
import RuleService.Proofs.Trace

namespace RuleService

/-- The codes that a value holds as a template: the placeholders of its texts, the counts of its
`$array` commands that are texts without one, and the statements of its `$exec` commands. -/
inductive Json.Snippet (v : Json) : String → Prop
  | placeholder {text code : String} (part : v.Part (.str text))
      (placed : .code code ∈ Piece.ofText text) : Snippet v code
  | count {fields desc : Fields} {code : String} (part : v.Part (.obj fields))
      (command : ("$array", .obj desc) ∈ fields) (counted : ("count", .str code) ∈ desc)
      (bare : hasPlaceholder code = false) : Snippet v code
  | statement {fields : Fields} {body : Json} {script : Script} {code : String}
      (part : v.Part (.obj fields)) (command : ("$exec", body) ∈ fields)
      (read : Script.ofJson? body = some script) (listed : .str code ∈ script.items) :
      Snippet v code

/-- Such a code stands in a text of the value. -/
theorem Json.Snippet.literal {v : Json} {code : String} (held : v.Snippet code) :
    ∃ text, v.Part (.str text) ∧ ∃ before after, text = before ++ code ++ after := by
  cases held with
  | @placeholder text _ part placed =>
    obtain ⟨before, after, split⟩ := Piece.placeholder_literal placed
    exact ⟨text, part, before ++ "$\x7b", "\x7d" ++ after, by simp [split, String.append_assoc]⟩
  | count part command counted bare =>
    exact ⟨code, (part.field command).field counted, "", "", by simp⟩
  | @statement fields body script _ part command read listed =>
    have itself : v.Part (.str code) := by
      cases body with
      | str text =>
        obtain rfl : Script.statement text = script := by simpa [Script.ofJson?] using read
        obtain rfl : code = text := by simpa [Script.statement] using listed
        exact part.field command
      | arr items =>
        obtain rfl : Script.mk items = script := by simpa [Script.ofJson?] using read
        exact (part.field command).item listed
      | _ => simp [Script.ofJson?] at read
    exact ⟨code, itself, "", "", by simp⟩

/-- A count that cannot be carried out is told as a malformed command. -/
theorem Count.malformed_of_error {v : Json} {f : Failure}
    (failed : (Count.size v >>= Count.check) = .error f) :
    ∃ command message, f = .malformed command message := by
  have sized {g : Failure} (hs : Count.size v = .error g) :
      ∃ command message, g = .malformed command message := by
    cases v with
    | str text =>
      simp only [Count.size] at hs
      cases hp : Double.parse? (Text.trim text) with
      | some d => simp [hp] at hs
      | none =>
        obtain rfl : _ = g := by simpa [hp] using hs
        exact ⟨_, _, rfl⟩
    | arr | obj =>
      cases hs
      exact ⟨_, _, rfl⟩
    | _ => cases hs
  cases hs : Count.size v with
  | error g =>
    rw [hs] at failed
    obtain rfl : g = f := by simpa [bind, Except.bind] using failed
    exact sized hs
  | ok n =>
    rw [hs] at failed
    change Count.check n = .error f at failed
    unfold Count.check at failed
    split at failed <;> cases failed
    exact ⟨_, _, rfl⟩

namespace Traced

variable {h : Host} {ctx : Context} {Code : String → Prop} {s : State}

theorem splice {pieces : List Piece} (allowed : ∀ code, .code code ∈ pieces → Code code)
    (acc : String) :
    Traced h ctx.request (Act.Expands Code) s fun engine => splice engine ctx acc pieces := by
  induction pieces generalizing acc s with
  | nil => exact .pure acc
  | cons piece pieces ih =>
    have rest : ∀ code, .code code ∈ pieces → Code code := by
      intro code hc
      exact allowed code (by simp [hc])
    cases piece with
    | plain text => exact ih rest (acc ++ text)
    | code code => exact (evaluate code (allowed code (by simp))).bind fun v t _ => ih rest _

theorem expandPieces {pieces : List Piece} (allowed : ∀ code, .code code ∈ pieces → Code code) :
    Traced h ctx.request (Act.Expands Code) s fun engine => expandPieces engine ctx pieces := by
  have spliced : Traced h ctx.request (Act.Expands Code) s fun engine =>
      Json.str <$> RuleService.splice engine ctx "" pieces := (splice allowed "").map Json.str
  unfold RuleService.expandPieces
  split
  · exact evaluate _ (allowed _ (by simp))
  · exact spliced

theorem script {script : Script} (allowed : ∀ code, .str code ∈ script.items → Code code) :
    Traced h ctx.request (Act.Expands Code) s fun engine => script.execute engine ctx := by
  apply forM
  intro code hc t
  apply execute
  apply allowed
  obtain ⟨item, listed, isCode⟩ := List.mem_filterMap.mp hc
  cases item with
  | str text =>
    obtain rfl : text = code := by simpa [Json.str?] using isCode
    exact listed
  | _ => simp [Json.str?] at isCode

theorem condition {c : Json}
    (placed : ∀ text code, c = .str text → .code code ∈ Piece.ofText text → Code code) :
    Traced h ctx.request (Act.Expands Code) s fun engine =>
      (Condition.ofJson c).value engine ctx := by
  cases c with
  | str text => exact expandPieces fun code hc => placed text code rfl hc
  | _ => exact .pure _

/-- A count runs the placeholders of a text, or a text without any as it stands. -/
theorem count {c : Json}
    (placed : ∀ text code, c = .str text → .code code ∈ Piece.ofText text → Code code)
    (bare : ∀ text, c = .str text → hasPlaceholder text = false → Code text) :
    Traced h ctx.request (Act.Expands Code) s fun engine =>
      (Count.ofJson c).resolve engine ctx := by
  have valued : Traced h ctx.request (Act.Expands Code) s fun engine =>
      (Count.ofJson c).value engine ctx := by
    cases c with
    | str text =>
      cases hp : hasPlaceholder text with
      | true =>
        simp only [Count.ofJson, hp, if_true]
        exact expandPieces fun code hc => placed text code rfl hc
      | false =>
        simp only [Count.ofJson, hp, Bool.false_eq_true, if_false]
        cases Double.parse? (Text.trim text) with
        | some d => exact .pure _
        | none => exact evaluate text (bare text rfl hp)
    | _ => exact .pure _
  refine valued.bind fun v t _ => ?_
  cases hv : Count.size v >>= Count.check with
  | error f => exact refuse f (Count.malformed_of_error hv)
  | ok n => exact .pure n

/-- Values that are expanded in turn, each in its own context. -/
theorem interpolateAll {request : Request} {parts : List (Context × Json)}
    (each : ∀ part ∈ parts, ∀ t, Traced h request (Act.Expands Code) t fun engine =>
      interpolate { h with engine } part.1 part.2) :
    Traced h request (Act.Expands Code) s fun engine => interpolateAll { h with engine } parts :=
  mapM each

/-- Whenever a value is expanded for a request, it runs codes of one kind only. -/
def Everywhere (h : Host) (request : Request) (Code : String → Prop) (v : Json) : Prop :=
  ∀ ctx, ctx.request = request → ∀ s,
    Traced h request (Act.Expands Code) s fun engine => interpolate { h with engine } ctx v

section Commands

variable {request : Request} {v : Json} {fields : Fields} {name : String} {body : Json}

theorem faulty {command message : String} (found : Fields.command? fields = some (name, body))
    (refused : Template.ofCommand h.commands (name, body) = .faulty (.malformed command message)) :
    Traced h ctx.request (Act.Expands Code) s fun engine =>
      interpolate { h with engine } ctx (.obj fields) :=
  .congr (fun engine => interpolate_faulty (h := { h with engine }) found refused)
    (refuse _ ⟨command, message, rfl⟩)

variable (outer : v.Part (.obj fields)) (found : Fields.command? fields = some (name, body))
  (parts : ∀ desc key w, body = .obj desc → Named.get? desc key = some w →
    Everywhere h ctx.request v.Snippet w)

include outer found

/-- The placeholders of a text in the body of a command. -/
theorem placeholder_of_field {desc : Fields} {key text code : String} (described : body = .obj desc)
    (held : Named.get? desc key = some (.str text)) (placed : .code code ∈ Piece.ofText text) :
    v.Snippet code := by
  subst described
  exact .placeholder ((outer.field (Fields.mem_of_command? found)).field (Fields.mem_of_get? held))
    placed

theorem exec (named : name = "$exec") (known : h.commands.lookup name = some .exec) :
    Traced h ctx.request (Act.Expands v.Snippet) s fun engine =>
      interpolate { h with engine } ctx (.obj fields) := by
  obtain ⟨code, read⟩ | ⟨message, refused⟩ := exec_or_faulty known body
  · refine .congr (fun engine => interpolate_exec (h := { h with engine }) found known read) ?_
    have member := Fields.mem_of_command? found
    rw [named] at member
    exact (script fun code listed => .statement outer member read listed).map _
  · exact faulty found refused

include parts

theorem choice (known : h.commands.lookup name = some .choice) :
    Traced h ctx.request (Act.Expands v.Snippet) s fun engine =>
      interpolate { h with engine } ctx (.obj fields) := by
  obtain ⟨desc, c, yes, rfl, hc, hy⟩ | ⟨message, refused⟩ := if_or_faulty known body
  · refine .congr (fun engine => interpolate_if (h := { h with engine }) found known hc hy) ?_
    refine (condition ?_).bind fun value t _ => ?_
    · rintro text code rfl placed
      exact placeholder_of_field outer found rfl hc placed
    · cases taken : Named.get? desc (if value.isTruthy then "then" else "else") with
      | none => exact .pure _
      | some branch => exact parts desc _ branch rfl taken ctx rfl t
  · exact faulty found refused

theorem array (named : name = "$array") (known : h.commands.lookup name = some .array) :
    Traced h ctx.request (Act.Expands v.Snippet) s fun engine =>
      interpolate { h with engine } ctx (.obj fields) := by
  obtain ⟨desc, c, element, rfl, hc, he⟩ | ⟨message, refused⟩ := array_or_faulty known body
  · refine .congr (fun engine => interpolate_array (h := { h with engine }) found known hc he) ?_
    refine (count ?_ ?_).bind fun n t _ => (interpolateAll fun one listed u => ?_).map _
    · rintro text code rfl placed
      exact placeholder_of_field outer found rfl hc placed
    · rintro text rfl bare
      have member := Fields.mem_of_command? found
      rw [named] at member
      exact .count outer member (Fields.mem_of_get? hc) bare
    · obtain ⟨i, -, rfl⟩ := List.mem_map.mp listed
      exact parts desc "element" element rfl he (ctx.bind "i" (.int i)) rfl u
  · exact faulty found refused

theorem csv (known : h.commands.lookup name = some .csv) :
    Traced h ctx.request (Act.Expands v.Snippet) s fun engine =>
      interpolate { h with engine } ctx (.obj fields) := by
  obtain ⟨desc, file, element, rfl, hf, he⟩ | ⟨message, refused⟩ := csv_or_faulty known body
  · refine .congr (fun engine => interpolate_csv (h := { h with engine }) found known hf he) ?_
    refine (expandPieces fun code placed => placeholder_of_field outer found rfl hf placed).bind
      fun path t _ => ?_
    refine (readFile path.display trivial).bind fun content t _ => ?_
    refine (interpolateAll fun one listed u => ?_).map _
    obtain ⟨row, -, rfl⟩ := List.mem_map.mp listed
    exact parts desc "element" element rfl he (ctx.bindAll row) rfl u
  · exact faulty found refused

theorem command (stock : h.commands = Commands.builtIn) :
    Traced h ctx.request (Act.Expands v.Snippet) s fun engine =>
      interpolate { h with engine } ctx (.obj fields) := by
  cases known : h.commands.lookup name with
  | none =>
    exact .congr (fun engine => interpolate_unknown (h := { h with engine }) found known) (.pure _)
  | some command =>
    obtain ⟨named, rfl⟩ | ⟨-, rfl⟩ | ⟨named, rfl⟩ | ⟨-, rfl⟩ :=
      Commands.builtIn_cases (stock ▸ known)
    · exact array outer found parts named known
    · exact csv outer found parts known
    · exact exec outer found named known
    · exact choice outer found parts known

end Commands

/-- A part of a template runs only codes that the template holds: by induction on the size, since a command
expands values two levels below it. -/
theorem interpolate_part {request : Request} {v : Json} (stock : h.commands = Commands.builtIn)
    (w : Json) (part : v.Part w) : Everywhere h request v.Snippet w := by
  induction w using Json.size_induction with
  | step w ih =>
  rintro ctx rfl s
  cases w with
  | str text =>
    simp only [interpolate_str]
    exact (expandPieces fun code placed => .placeholder part placed).map some
  | arr vs =>
    simp only [interpolate_arr]
    refine (interpolateAll fun one listed t => ?_).map _
    obtain ⟨x, member, rfl⟩ := List.mem_map.mp listed
    exact ih x (Json.sizeOf_item_lt member) (.item part member) ctx rfl t
  | obj fields =>
    cases hc : Fields.command? fields with
    | none =>
      simp only [interpolate_obj hc]
      refine (interpolateAll fun one listed t => ?_).map _
      obtain ⟨x, member, rfl⟩ := List.mem_map.mp listed
      exact ih x.2 (Json.sizeOf_field_lt member) (.field part member) ctx rfl t
    | some found =>
      obtain ⟨name, body⟩ := found
      refine command part hc (fun desc key x hb held => ?_) stock
      subst hb
      refine ih x (Json.sizeOf_described_lt hc held) ?_
      exact (part.field (Fields.mem_of_command? hc)).field (Fields.mem_of_get? held)
  | _ => exact .pure _

end Traced

end RuleService
