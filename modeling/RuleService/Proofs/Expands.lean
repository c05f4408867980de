import RuleService.Proofs.Journal
import RuleService.Proofs.Parts

namespace RuleService

open Effect

/-- A value that has no parts and is no text. -/
def Json.Scalar : Json → Prop
  | .str _ | .arr _ | .obj _ => False
  | _ => True

mutual

/-- In a context a value expands from one state to another, to a value or to nothing. -/
inductive Expands (h : Host) : Context → Json → State → Option Json → State → Prop
  | scalar {ctx : Context} {v : Json} {s : State} (bare : v.Scalar) : Expands h ctx v s (some v) s
  | text {ctx : Context} {text : String} {v : Json} {s t : State}
      (value : (expand h.engine ctx text).outcome s = (.ok v, t)) :
      Expands h ctx (.str text) s (some v) t
  | array {ctx : Context} {vs : List Json} {outs : List (Option Json)} {s t : State}
      (items : ExpandsAll h (vs.map fun v => (ctx, v)) s outs t) :
      Expands h ctx (.arr vs) s (some (.arr (slots outs))) t
  | object {ctx : Context} {fields : Fields} {outs : List (Option Json)} {s t : State}
      (plain : Fields.command? fields = none)
      (values : ExpandsAll h (fields.map fun field => (ctx, field.2)) s outs t) :
      Expands h ctx (.obj fields) s (some (.obj (kept fields outs))) t
  | unknown {ctx : Context} {fields : Fields} {name : String} {body : Json} {s : State}
      (found : Fields.command? fields = some (name, body))
      (unknown : Commands.builtIn.lookup name = none) :
      Expands h ctx (.obj fields) s (some (.obj [(name, body)])) s
  | exec {ctx : Context} {fields : Fields} {body : Json} {script : Script} {s t : State}
      (found : Fields.command? fields = some ("$exec", body))
      (read : Script.ofJson? body = some script)
      (ran : (script.execute h.engine ctx).outcome s = (.ok (), t)) :
      Expands h ctx (.obj fields) s none t
  | branch {ctx : Context} {fields desc : Fields} {condition yes v branch : Json}
      {out : Option Json} {s t u : State}
      (found : Fields.command? fields = some ("$if", .obj desc))
      (asked : Named.get? desc "condition" = some condition)
      (first : Named.get? desc "then" = some yes)
      (value : ((Condition.ofJson condition).value h.engine ctx).outcome s = (.ok v, t))
      (taken : Named.get? desc (if v.isTruthy then "then" else "else") = some branch)
      (rest : Expands h ctx branch t out u) :
      Expands h ctx (.obj fields) s out u
  | neither {ctx : Context} {fields desc : Fields} {condition yes v : Json} {s t : State}
      (found : Fields.command? fields = some ("$if", .obj desc))
      (asked : Named.get? desc "condition" = some condition)
      (first : Named.get? desc "then" = some yes)
      (value : ((Condition.ofJson condition).value h.engine ctx).outcome s = (.ok v, t))
      (falsy : v.isTruthy = false) (absent : Named.get? desc "else" = none) :
      Expands h ctx (.obj fields) s none t
  | repeated {ctx : Context} {fields desc : Fields} {count element : Json} {n : Nat}
      {outs : List (Option Json)} {s t u : State}
      (found : Fields.command? fields = some ("$array", .obj desc))
      (counted : Named.get? desc "count" = some count)
      (given : Named.get? desc "element" = some element)
      (value : ((Count.ofJson count).resolve h.engine ctx).outcome s = (.ok n, t))
      (elements : ExpandsAll h
        ((List.range n).map fun (i : Nat) => (ctx.bind "i" (.int i), element)) t outs u) :
      Expands h ctx (.obj fields) s (some (.arr (slots outs))) u
  | rows {ctx : Context} {fields desc : Fields} {file content : String} {element path : Json}
      {outs : List (Option Json)} {s t u : State}
      (found : Fields.command? fields = some ("$csv", .obj desc))
      (named : Named.get? desc "file" = some (.str file))
      (given : Named.get? desc "element" = some element)
      (value : (expand h.engine ctx file).outcome s = (.ok path, t))
      (read : h.file path.display = .ok content)
      (elements : ExpandsAll h
        (((RowLayout.ofFields desc).items content).map fun row => (ctx.bindAll row, element))
        (t.record (.read path.display)) outs u) :
      Expands h ctx (.obj fields) s (some (.arr (slots outs))) u

/-- Values expand in turn, each in its own context. -/
inductive ExpandsAll (h : Host) :
    List (Context × Json) → State → List (Option Json) → State → Prop
  | nil {s : State} : ExpandsAll h [] s [] s
  | cons {ctx : Context} {v : Json} {parts : List (Context × Json)} {out : Option Json}
      {outs : List (Option Json)} {s t u : State} (first : Expands h ctx v s out t)
      (rest : ExpandsAll h parts t outs u) : ExpandsAll h ((ctx, v) :: parts) s (out :: outs) u

end

variable {h : Host} {ctx : Context} {s t : State}

theorem interpolateAll_cons_iff {part : Context × Json} {parts : List (Context × Json)}
    {outs : List (Option Json)} :
    (interpolateAll h (part :: parts)).outcome s = (.ok outs, t) ↔
      ∃ out rest u, outs = out :: rest ∧ (interpolate h part.1 part.2).outcome s = (.ok out, u) ∧
        (interpolateAll h parts).outcome u = (.ok rest, t) := by
  simp only [interpolateAll, List.mapM_cons, bind_ok_iff, outcome_pure, Prod.mk.injEq,
    Except.ok.injEq]
  constructor
  · rintro ⟨out, u, ho, rest, w, hr, rfl, rfl⟩
    exact ⟨out, rest, u, rfl, ho, hr⟩
  · rintro ⟨out, rest, u, rfl, ho, hr⟩
    exact ⟨out, u, ho, rest, t, hr, rfl, rfl⟩

/-- Values expand in turn as they do each by itself. -/
theorem interpolateAll_iff {parts : List (Context × Json)} {outs : List (Option Json)}
    (each : ∀ part ∈ parts, ∀ s out t,
      (interpolate h part.1 part.2).outcome s = (.ok out, t) ↔ Expands h part.1 part.2 s out t) :
    (interpolateAll h parts).outcome s = (.ok outs, t) ↔ ExpandsAll h parts s outs t := by
  induction parts generalizing s outs with
  | nil =>
    constructor
    · intro hs
      obtain ⟨rfl, rfl⟩ : outs = [] ∧ s = t := by simpa [interpolateAll, eq_comm] using hs
      exact .nil
    · rintro ⟨⟩
      rfl
  | cons part parts ih =>
    have tail : ∀ {outs u}, (interpolateAll h parts).outcome u = (.ok outs, t) ↔
        ExpandsAll h parts u outs t := ih fun one listed => each one (by simp [listed])
    rw [interpolateAll_cons_iff]
    constructor
    · rintro ⟨out, rest, u, rfl, ho, hr⟩
      exact .cons ((each part (by simp) s out u).mp ho) (tail.mp hr)
    · rintro ⟨⟩
      next out outs u first rest =>
      exact ⟨out, outs, u, rfl, (each _ (by simp) s out u).mpr first, tail.mpr rest⟩

/-- Whatever the expansion of a value gives, the relation says so, and the other way round. -/
def Known (h : Host) (v : Json) : Prop :=
  ∀ ctx s out t, (interpolate h ctx v).outcome s = (.ok out, t) ↔ Expands h ctx v s out t

section Step

variable {v : Json} {fields : Fields} {name : String} {body : Json} {out : Option Json}

theorem items_iff {vs : List Json} {outs : List (Option Json)}
    (smaller : ∀ w, sizeOf w < sizeOf (Json.arr vs) → Known h w) :
    (interpolateAll h (vs.map fun v => (ctx, v))).outcome s = (.ok outs, t) ↔
      ExpandsAll h (vs.map fun v => (ctx, v)) s outs t := by
  apply interpolateAll_iff
  intro part listed
  obtain ⟨w, member, rfl⟩ := List.mem_map.mp listed
  exact smaller w (Json.sizeOf_item_lt member) ctx

theorem fields_iff {outs : List (Option Json)}
    (smaller : ∀ w, sizeOf w < sizeOf (Json.obj fields) → Known h w) :
    (interpolateAll h (fields.map fun field => (ctx, field.2))).outcome s = (.ok outs, t) ↔
      ExpandsAll h (fields.map fun field => (ctx, field.2)) s outs t := by
  apply interpolateAll_iff
  intro part listed
  obtain ⟨field, member, rfl⟩ := List.mem_map.mp listed
  exact smaller field.2 (Json.sizeOf_field_lt member) ctx

/-- The elements of `$array` and `$csv`: one value in several contexts. -/
theorem elements_iff {α : Type} {as : List α} {place : α → Context} {w : Json}
    {outs : List (Option Json)} (known : Known h w) :
    (interpolateAll h (as.map fun a => (place a, w))).outcome s = (.ok outs, t) ↔
      ExpandsAll h (as.map fun a => (place a, w)) s outs t := by
  apply interpolateAll_iff
  intro part listed
  obtain ⟨a, -, rfl⟩ := List.mem_map.mp listed
  exact known (place a)

theorem absurd_of_faulty {f : Failure} (found : Fields.command? fields = some (name, body))
    (faulty : Template.ofCommand h.commands (name, body) = .faulty f)
    (hs : (interpolate h ctx (.obj fields)).outcome s = (.ok out, t)) : False := by
  rw [interpolate_faulty found faulty] at hs
  simp at hs

theorem expands_of_exec (known : h.commands.lookup "$exec" = some .exec)
    (found : Fields.command? fields = some ("$exec", body))
    (hs : (interpolate h ctx (.obj fields)).outcome s = (.ok out, t)) :
    Expands h ctx (.obj fields) s out t := by
  obtain ⟨script, read⟩ | ⟨message, faulty⟩ := exec_or_faulty known body
  · rw [interpolate_exec found known read, map_ok_iff] at hs
    obtain ⟨⟨⟩, ran, rfl⟩ := hs
    exact .exec found read ran
  · exact (absurd_of_faulty found faulty hs).elim

section Smaller

variable (smaller : ∀ w, sizeOf w < sizeOf (Json.obj fields) → Known h w)

include smaller

theorem expands_of_array (known : h.commands.lookup "$array" = some .array)
    (found : Fields.command? fields = some ("$array", body))
    (hs : (interpolate h ctx (.obj fields)).outcome s = (.ok out, t)) :
    Expands h ctx (.obj fields) s out t := by
  obtain ⟨desc, count, element, rfl, hc, he⟩ | ⟨message, faulty⟩ := array_or_faulty known body
  · rw [interpolate_array found known hc he, bind_ok_iff] at hs
    obtain ⟨n, u, value, hs⟩ := hs
    obtain ⟨outs, elements, rfl⟩ := map_ok_iff.mp hs
    have given := smaller element (Json.sizeOf_described_lt found he)
    exact .repeated found hc he value ((elements_iff given).mp elements)
  · exact (absurd_of_faulty found faulty hs).elim

theorem expands_of_csv (known : h.commands.lookup "$csv" = some .csv)
    (found : Fields.command? fields = some ("$csv", body))
    (hs : (interpolate h ctx (.obj fields)).outcome s = (.ok out, t)) :
    Expands h ctx (.obj fields) s out t := by
  obtain ⟨desc, file, element, rfl, hf, he⟩ | ⟨message, faulty⟩ := csv_or_faulty known body
  · rw [interpolate_csv found known hf he, bind_ok_iff] at hs
    obtain ⟨path, u, value, hs⟩ := hs
    obtain ⟨content, read, hs⟩ := readFile_bind_ok_iff.mp hs
    obtain ⟨outs, elements, rfl⟩ := map_ok_iff.mp hs
    have given := smaller element (Json.sizeOf_described_lt found he)
    exact .rows found hf he value read ((elements_iff given).mp elements)
  · exact (absurd_of_faulty found faulty hs).elim

theorem expands_of_if (known : h.commands.lookup "$if" = some .choice)
    (found : Fields.command? fields = some ("$if", body))
    (hs : (interpolate h ctx (.obj fields)).outcome s = (.ok out, t)) :
    Expands h ctx (.obj fields) s out t := by
  obtain ⟨desc, condition, yes, rfl, hc, hy⟩ | ⟨message, faulty⟩ := if_or_faulty known body
  · rw [interpolate_if found known hc hy, bind_ok_iff] at hs
    obtain ⟨v, u, value, hs⟩ := hs
    cases taken : Named.get? desc (if v.isTruthy then "then" else "else") with
    | some branch =>
      rw [taken] at hs
      have given := smaller branch (Json.sizeOf_described_lt found taken)
      exact .branch found hc hy value taken ((given ..).mp hs)
    | none =>
      rw [taken] at hs
      obtain ⟨rfl, rfl⟩ : none = out ∧ u = t := by simpa using hs
      cases truthy : v.isTruthy with
      | true => simp [truthy, hy] at taken
      | false => exact .neither found hc hy value truthy (by simpa [truthy] using taken)
  · exact (absurd_of_faulty found faulty hs).elim

end Smaller

variable (stock : h.commands = Commands.builtIn)

include stock

theorem expands_of_command (smaller : ∀ w, sizeOf w < sizeOf (Json.obj fields) → Known h w)
    (found : Fields.command? fields = some (name, body))
    (hs : (interpolate h ctx (.obj fields)).outcome s = (.ok out, t)) :
    Expands h ctx (.obj fields) s out t := by
  cases known : h.commands.lookup name with
  | none =>
    rw [interpolate_unknown found known] at hs
    obtain ⟨rfl, rfl⟩ : _ = out ∧ s = t := by simpa using hs
    exact .unknown found (stock ▸ known)
  | some command =>
    obtain ⟨rfl, rfl⟩ | ⟨rfl, rfl⟩ | ⟨rfl, rfl⟩ | ⟨rfl, rfl⟩ :=
      Commands.builtIn_cases (stock ▸ known)
    · exact expands_of_array smaller known found hs
    · exact expands_of_csv smaller known found hs
    · exact expands_of_exec known found hs
    · exact expands_of_if smaller known found hs

private theorem lookup_stock {command : Command}
    (listed : Commands.builtIn.lookup name = some command) :
    h.commands.lookup name = some command := stock ▸ listed

/-- What a value expands to by the relation is what its expansion gives, if that is so of all
smaller values. -/
theorem outcome_of_expands (smaller : ∀ w, sizeOf w < sizeOf v → Known h w)
    (expands : Expands h ctx v s out t) : (interpolate h ctx v).outcome s = (.ok out, t) := by
  cases expands with
  | scalar bare => cases v <;> first | rfl | cases bare
  | text value =>
    rw [interpolate_str, map_ok_iff]
    exact ⟨_, value, rfl⟩
  | array items =>
    rw [interpolate_arr, map_ok_iff]
    exact ⟨_, (items_iff smaller).mpr items, rfl⟩
  | object plain values =>
    rw [interpolate_obj plain, map_ok_iff]
    exact ⟨_, (fields_iff smaller).mpr values, rfl⟩
  | unknown found unknown =>
    rw [interpolate_unknown found (stock ▸ unknown)]
    rfl
  | exec found read ran =>
    rw [interpolate_exec found (lookup_stock stock rfl) read, map_ok_iff]
    exact ⟨(), ran, rfl⟩
  | branch found asked first value taken rest =>
    have known := smaller _ (Json.sizeOf_described_lt found taken)
    rw [interpolate_if found (lookup_stock stock rfl) asked first, bind_ok_iff]
    refine ⟨_, _, value, ?_⟩
    rw [taken]
    exact (known ..).mpr rest
  | neither found asked first value falsy absent =>
    rw [interpolate_if found (lookup_stock stock rfl) asked first, bind_ok_iff]
    refine ⟨_, _, value, ?_⟩
    simp [falsy, absent]
  | repeated found counted given value elements =>
    have known := smaller _ (Json.sizeOf_described_lt found given)
    rw [interpolate_array found (lookup_stock stock rfl) counted given, bind_ok_iff]
    refine ⟨_, _, value, map_ok_iff.mpr ⟨_, ?_, rfl⟩⟩
    exact (elements_iff known).mpr elements
  | rows found named given value read elements =>
    have known := smaller _ (Json.sizeOf_described_lt found given)
    rw [interpolate_csv found (lookup_stock stock rfl) named given, bind_ok_iff]
    refine ⟨_, _, value, readFile_bind_ok_iff.mpr ⟨_, read, map_ok_iff.mpr ⟨_, ?_, rfl⟩⟩⟩
    exact (elements_iff known).mpr elements

/-- What the expansion of a value gives is what the value expands to by the relation, if that is so
of all smaller values. -/
theorem expands_of_outcome (smaller : ∀ w, sizeOf w < sizeOf v → Known h w)
    (hs : (interpolate h ctx v).outcome s = (.ok out, t)) : Expands h ctx v s out t := by
  cases v with
  | str text =>
    rw [interpolate_str, map_ok_iff] at hs
    obtain ⟨v, value, rfl⟩ := hs
    exact .text value
  | arr vs =>
    rw [interpolate_arr, map_ok_iff] at hs
    obtain ⟨outs, items, rfl⟩ := hs
    exact .array ((items_iff smaller).mp items)
  | obj fields =>
    cases hc : Fields.command? fields with
    | none =>
      rw [interpolate_obj hc, map_ok_iff] at hs
      obtain ⟨outs, values, rfl⟩ := hs
      exact .object hc ((fields_iff smaller).mp values)
    | some command => exact expands_of_command stock smaller hc hs
  | _ =>
    cases hs
    exact .scalar trivial

end Step

theorem interpolate_iff_expands (stock : h.commands = Commands.builtIn) (v : Json) : Known h v := by
  induction v using Json.size_induction with
  | step v ih =>
  intro ctx s out t
  exact ⟨expands_of_outcome stock ih, outcome_of_expands stock ih⟩

end RuleService
