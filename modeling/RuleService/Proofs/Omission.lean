import RuleService.Proofs.Expands
import RuleService.Proofs.Confinement

namespace RuleService

open Effect

/-- A value that expands to nothing: an `$exec`, an `$if` without the branch that its condition asks
for, or one whose branch expands to nothing. -/
inductive Omitted (h : Host) (ctx : Context) : Json → State → Prop
  | exec {fields : Fields} {body : Json} {s : State}
      (found : Fields.command? fields = some ("$exec", body)) : Omitted h ctx (.obj fields) s
  | neither {fields desc : Fields} {condition v : Json} {s t : State}
      (found : Fields.command? fields = some ("$if", .obj desc))
      (asked : Named.get? desc "condition" = some condition)
      (value : ((Condition.ofJson condition).value h.engine ctx).outcome s = (.ok v, t))
      (falsy : v.isTruthy = false) (absent : Named.get? desc "else" = none) :
      Omitted h ctx (.obj fields) s
  | branch {fields desc : Fields} {condition v branch : Json} {s t : State}
      (found : Fields.command? fields = some ("$if", .obj desc))
      (asked : Named.get? desc "condition" = some condition)
      (value : ((Condition.ofJson condition).value h.engine ctx).outcome s = (.ok v, t))
      (taken : Named.get? desc (if v.isTruthy then "then" else "else") = some branch)
      (rest : Omitted h ctx branch t) : Omitted h ctx (.obj fields) s

variable {h : Host} {ctx : Context} {v : Json} {out : Option Json} {s t : State}

theorem Expands.none_of_exec {fields : Fields} {body : Json}
    (found : Fields.command? fields = some ("$exec", body))
    (expands : Expands h ctx (.obj fields) s out t) : out = none := by
  cases expands with
  | exec => rfl
  | scalar bare => exact bare.elim
  | object plain _ => simp [plain] at found
  | unknown found' unknown =>
    simp [found] at found'
    simp [← found'.1, Commands.builtIn, List.lookup_cons] at unknown
  | branch found' | neither found' | repeated found' | rows found' => simp [found] at found'

/-- An `$if` expands to what the branch that its condition asks for does, or to nothing if there is
none. -/
theorem Expands.of_if {fields desc : Fields} {condition w : Json} {u : State}
    (found : Fields.command? fields = some ("$if", .obj desc))
    (asked : Named.get? desc "condition" = some condition)
    (value : ((Condition.ofJson condition).value h.engine ctx).outcome s = (.ok w, u))
    (expands : Expands h ctx (.obj fields) s out t) :
    (∃ branch, Named.get? desc (if w.isTruthy then "then" else "else") = some branch ∧
      Expands h ctx branch u out t) ∨
    (Named.get? desc (if w.isTruthy then "then" else "else") = none ∧ out = none) := by
  cases expands with
  | branch found' asked' _ value' taken rest =>
    obtain rfl : _ = _ := by simpa [found] using found'
    obtain rfl : _ = _ := by simpa [asked] using asked'
    obtain ⟨rfl, rfl⟩ : _ ∧ _ := by simpa [value] using value'
    exact .inl ⟨_, taken, rest⟩
  | neither found' asked' _ value' falsy absent =>
    obtain rfl : _ = _ := by simpa [found] using found'
    obtain rfl : _ = _ := by simpa [asked] using asked'
    obtain ⟨rfl, rfl⟩ : _ ∧ _ := by simpa [value] using value'
    exact .inr ⟨by simpa [falsy] using absent, rfl⟩
  | scalar bare => exact bare.elim
  | object plain _ => simp [plain] at found
  | unknown found' unknown =>
    simp [found] at found'
    simp [← found'.1, Commands.builtIn, List.lookup_cons] at unknown
  | exec found' | repeated found' | rows found' => simp [found] at found'

/-- A value that is omitted expands to nothing. -/
theorem Omitted.out_none (omitted : Omitted h ctx v s) (expands : Expands h ctx v s out t) :
    out = none := by
  induction omitted generalizing out t with
  | exec found => exact expands.none_of_exec found
  | neither found asked value falsy absent =>
    obtain ⟨branch, taken, -⟩ | ⟨-, none⟩ := expands.of_if found asked value
    · simp [falsy, absent] at taken
    · exact none
  | branch found asked value taken rest ih =>
    obtain ⟨branch, taken', rest'⟩ | ⟨missing, -⟩ := expands.of_if found asked value
    · obtain rfl : _ = branch := by simpa [taken] using taken'
      exact ih rest'
    · simp [taken] at missing

/-- A value that expands to nothing is omitted. -/
theorem omitted_of_none (expands : Expands h ctx v s none t) : Omitted h ctx v s := by
  induction v using Json.size_induction generalizing s with
  | step v ih =>
  cases expands with
  | exec found => exact .exec found
  | branch found asked _ value taken rest =>
    exact .branch found asked value taken (ih _ (Json.sizeOf_described_lt found taken) rest)
  | neither found asked _ value falsy absent => exact .neither found asked value falsy absent

theorem Expands.none_iff (expands : Expands h ctx v s out t) : out = none ↔ Omitted h ctx v s := by
  constructor
  · rintro rfl
    exact omitted_of_none expands
  · intro omitted
    exact omitted.out_none expands

/-- Each of several values has its slot, and expands over what the values before it left. -/
theorem ExpandsAll.slot {parts : List (Context × Json)} {outs : List (Option Json)}
    (all : ExpandsAll h parts s outs t) {i : Nat} (part : parts[i]? = some (ctx, v)) :
    ∃ out u w, outs[i]? = some out ∧ ExpandsAll h (parts.take i) s (outs.take i) u ∧
      Expands h ctx v u out w := by
  induction parts generalizing s outs i with
  | nil => simp at part
  | cons one parts ih =>
    cases all with
    | cons first rest =>
    cases i with
    | zero =>
      obtain ⟨rfl, rfl⟩ : _ = ctx ∧ _ = v := by simpa using part
      exact ⟨_, s, _, rfl, .nil, first⟩
    | succ i =>
      obtain ⟨out, u, w, given, before, expands⟩ := ih rest (by simpa using part)
      exact ⟨out, u, w, by simpa using given, .cons first before, expands⟩

theorem ExpandsAll.length_eq {parts : List (Context × Json)} {outs : List (Option Json)}
    (all : ExpandsAll h parts s outs t) : outs.length = parts.length := by
  induction parts generalizing s outs with
  | nil =>
    cases all
    rfl
  | cons part parts ih =>
    cases all with
    | cons first rest => exact congrArg (· + 1) (ih rest)

/-- The shape of an expansion. What the relation says is what the program does, every act of it over
what the one before left; what is omitted are the omitted values; and of several values each has its
slot, which is empty if the value is omitted where it stands. -/
theorem interpolate_shape (stock : h.commands = Commands.builtIn) (ctx : Context) (v : Json)
    (s : State) :
    (∀ out t, (interpolate h ctx v).outcome s = (.ok out, t) ↔ Expands h ctx v s out t) ∧
    (∀ out t, Expands h ctx v s out t →
      (out = none ↔ Omitted h ctx v s) ∧
      ∃ acts, Ran h ctx.request acts s none t ∧ ∀ act ∈ acts, act.Expands v.Snippet) ∧
    ∀ parts outs t, ExpandsAll h parts s outs t → outs.length = parts.length ∧
      ∀ (i : Nat) ctx v, parts[i]? = some (ctx, v) →
        ∃ out u w, outs[i]? = some out ∧ ExpandsAll h (parts.take i) s (outs.take i) u ∧
          Expands h ctx v u out w ∧ (out = none ↔ Omitted h ctx v u) := by
  refine ⟨interpolate_iff_expands stock v ctx s, ?_, ?_⟩
  · intro out t expands
    have done := (interpolate_iff_expands stock v ctx s out t).mpr expands
    obtain ⟨acts, ran, allowed, -⟩ := Traced.interpolate_part stock v .whole ctx rfl s
    rw [done] at ran
    exact ⟨expands.none_iff, acts, ran, allowed⟩
  · intro parts outs t all
    refine ⟨all.length_eq, fun i ctx v part => ?_⟩
    obtain ⟨out, u, w, given, before, expands⟩ := all.slot part
    exact ⟨out, u, w, given, before, expands, expands.none_iff⟩

/-- A host whose snippets do nothing. -/
def silent : Host where
  engine :=
    { expression _ _ := { outcome := .ok (some .null), binding _ := none }
      script _ _ := { outcome := .ok none, binding _ := none } }
  file path := .error (.fileNotFound path)

theorem interpolate_shape_silent : silent.commands = Commands.builtIn ∧ ∃ t,
    (interpolate silent {} (.arr [.obj [("$exec", .str "x")], .null, .bool true])).outcome {} =
      (.ok (some (.arr [.null, .null, .bool true])), t) := by
  obtain ⟨t, ran⟩ : ∃ t, ((Script.statement "x").execute silent.engine {}).outcome {} =
      (.ok (), t) := done_of_isOk (by decide +kernel)
  have found : Fields.command? [("$exec", .str "x")] = some ("$exec", .str "x") := by
    simp [Fields.command?, Template.isCommandName]
  have silenced : Expands silent {} (.obj [("$exec", .str "x")]) {} none t := .exec found rfl ran
  have items : ExpandsAll silent
      ([.obj [("$exec", .str "x")], .null, .bool true].map fun v => (({} : Context), v)) {}
      [none, some .null, some (.bool true)] t :=
    .cons silenced (.cons (.scalar trivial) (.cons (.scalar trivial) .nil))
  exact ⟨rfl, t, ((interpolate_shape rfl {} _ {}).1 _ _).mpr (.array items)⟩

end RuleService
