import RuleService.Proofs.Sending

namespace RuleService

theorem sameName_iff {a b : String} : sameName a b = true ↔ foldName a = foldName b := beq_iff_eq

/-- The same names, character by character. -/
theorem sameName_eq (a b : String) :
    sameName a b = (a.toList.map Char.toLower == b.toList.map Char.toLower) := by
  rw [Bool.eq_iff_iff, sameName_iff, beq_iff_eq, foldName, foldName, ← String.toList_inj,
    String.toList_map, String.toList_map]

@[simp] theorem sameName_self (name : String) : sameName name name = true := sameName_iff.mpr rfl

theorem sameName_comm (a b : String) : sameName a b = sameName b a := BEq.comm

/-- Names that are the same are the same as the same names. -/
theorem sameName_congr {a b : String} (same : sameName a b = true) (name : String) :
    sameName a name = sameName b name := by
  rw [sameName, sameName_iff.mp same, sameName]

/-- No two names are equal up to case. -/
def Distinct (names : List String) : Prop := names.Pairwise fun a b => sameName a b = false

/-- The names after one more is mentioned: it is added unless it is there in some spelling. -/
def mention (names : List String) (name : String) : List String :=
  if names.any (sameName · name) then names else names ++ [name]

theorem mention_cons {key name : String} (apart : sameName key name = false)
    (names : List String) : mention (key :: names) name = key :: mention names name := by
  rw [mention, mention, List.any_cons, apart, Bool.false_or]
  split <;> rfl

theorem prefix_mention (names : List String) (name : String) : names <+: mention names name := by
  unfold mention
  split
  · exact List.prefix_rfl
  · exact List.prefix_append names [name]

theorem Distinct.mention {names : List String} (distinct : Distinct names) (name : String) :
    Distinct (mention names name) := by
  unfold RuleService.mention
  split
  · exact distinct
  · next absent =>
    refine List.pairwise_append.mpr ⟨distinct, List.pairwise_singleton .., ?_⟩
    intro a listed b added
    obtain rfl : b = name := by simpa using added
    simp only [List.any_eq_true, not_exists, not_and] at absent
    exact Bool.eq_false_iff.mpr (absent a listed)

namespace Fields

/-- The value of a name in any spelling. -/
def named? (fields : Fields) (name : String) : Option Json :=
  (fields.find? fun field => sameName field.1 name).map (·.2)

/-- Replaces the value of a name in its first spelling, or adds the name at the end. -/
def write : Fields → String → Json → Fields
  | [], name, v => [(name, v)]
  | (key, old) :: rest, name, v =>
    if sameName key name then (key, v) :: rest else (key, old) :: write rest name v

theorem put_spelling (fields : Fields) (name : String) (v : Json) :
    fields.put (((fields.find? fun field => sameName field.1 name).map (·.1)).getD name) v =
      fields.write name v := by
  induction fields with
  | nil => rfl
  | cons field rest ih =>
    obtain ⟨key, old⟩ := field
    cases same : sameName key name with
    | true => simp [Named.put, write, same]
    | false =>
      rw [List.find?_cons_of_neg (by simp [same]), write, if_neg (by simp [same]), ← ih]
      refine if_neg ?_
      intro equal
      cases found : rest.find? fun field => sameName field.1 name with
      | none =>
        rw [found] at equal
        simp [eq_of_beq equal] at same
      | some other =>
        have alike : sameName other.1 name = true := by simpa using List.find?_some found
        obtain rfl : key = other.1 := by simpa [found] using equal
        exact Bool.false_ne_true (same.symm.trans alike)

theorem keys_write (fields : Fields) (name : String) (v : Json) :
    (fields.write name v).keys = mention fields.keys name := by
  induction fields with
  | nil => rfl
  | cons field rest ih =>
    obtain ⟨key, old⟩ := field
    have names (v : Json) (rest : Fields) :
        Named.keys ((key, v) :: rest) = key :: rest.keys := rfl
    cases same : sameName key name with
    | true => simp [write, names, mention, same]
    | false =>
      rw [write, if_neg (by simp [same]), names, names, mention_cons same, ih]

theorem named?_write (fields : Fields) (name other : String) (v : Json) :
    (fields.write name v).named? other =
      if sameName name other then some v else fields.named? other := by
  induction fields with
  | nil => cases same : sameName name other <;> simp [write, named?, same]
  | cons field rest ih =>
    obtain ⟨key, old⟩ := field
    simp only [named?] at ih
    cases here : sameName key name with
    | true =>
      have alike := sameName_congr here other
      cases same : sameName name other <;> simp [write, named?, here, alike, same]
    | false =>
      cases same : sameName key other with
      | true =>
        have apart : sameName name other = false := by
          rw [← Bool.not_eq_true, sameName_iff, ← sameName_iff.mp same, ← sameName_iff,
            sameName_comm, here]
          exact Bool.false_ne_true
        simp [write, named?, here, same, apart]
      | false => simp [write, named?, here, same, ih]

theorem getElem?_write {fields : Fields} {name : String} (v : Json) {i : Nat}
    {field : String × Json} (there : fields[i]? = some field)
    (apart : sameName field.1 name = false) : (fields.write name v)[i]? = some field := by
  induction fields generalizing i with
  | nil => cases there
  | cons first rest ih =>
    cases here : sameName first.1 name with
    | true =>
      cases i with
      | zero =>
        obtain rfl : first = field := by simpa using there
        exact absurd (here.symm.trans apart) nofun
      | succ i => simpa [write, here] using there
    | false =>
      cases i with
      | zero => simpa [write, here] using there
      | succ i => simpa [write, here] using ih (by simpa using there)

end Fields

theorem Response.setHeader_eq (r : Response) (name : String) (v : Json) :
    r.setHeader name v = { r with headers := r.headers.write name v } := by
  rw [setHeader, Fields.put_spelling]

theorem Response.setDefaultHeader_eq (r : Response) (name value : String) :
    r.setDefaultHeader name value =
      if (r.header? name).isSome then r
      else { r with headers := r.headers.write name (.str value) } := by
  rw [setDefaultHeader]
  cases held : r.header? name with
  | some v => rfl
  | none =>
    have absent : r.headers.find? (fun field => sameName field.1 name) = none := by
      simpa [header?] using held
    have written := Fields.put_spelling r.headers name (.str value)
    rw [absent] at written
    simp [← written]

/-- A call that gives a header a value, whatever it has or only if it has none. -/
inductive HeaderCall where
  | set (name : String) (v : Json)
  | setDefault (name value : String)

namespace HeaderCall

def name : HeaderCall → String
  | set name _ | setDefault name _ => name

def apply (r : Response) : HeaderCall → Response
  | set name v => r.setHeader name v
  | setDefault name value => r.setDefaultHeader name value

/-- What a call gives a name in any case. -/
def sets? (n : String) : HeaderCall → Option Json
  | set name v => if sameName name n then some v else none
  | setDefault .. => none

/-- What a call gives a name that has no value. -/
def defaults? (n : String) : HeaderCall → Option Json
  | set .. => none
  | setDefault name value => if sameName name n then some (.str value) else none

/-- A response after some calls. -/
def applyAll (r : Response) (calls : List HeaderCall) : Response := calls.foldl apply r

variable {r : Response} {call : HeaderCall} {calls : List HeaderCall}

theorem applyAll_append (before later : List HeaderCall) :
    applyAll r (before ++ later) = applyAll (applyAll r before) later := List.foldl_append

/-- A call writes its header, or leaves the response as it is since the header is there. -/
theorem apply_cases (r : Response) (call : HeaderCall) :
    (∃ v, call.apply r = { r with headers := r.headers.write call.name v }) ∨
      (call.apply r = r ∧ (r.header? call.name).isSome = true) := by
  cases call with
  | set name v => exact .inl ⟨v, r.setHeader_eq name v⟩
  | setDefault name value =>
    simp only [apply, Response.setDefaultHeader_eq]
    split
    · next held => exact .inr ⟨rfl, held⟩
    · exact .inl ⟨.str value, rfl⟩

theorem keys_apply (r : Response) (call : HeaderCall) :
    (call.apply r).headers.keys = mention r.headers.keys call.name := by
  obtain ⟨v, written⟩ | ⟨left, held⟩ := apply_cases r call
  · rw [written]
    exact Fields.keys_write ..
  · rw [left, mention, if_pos]
    obtain ⟨field, listed, same⟩ : ∃ field ∈ r.headers, sameName field.1 call.name = true := by
      simpa [Response.header?] using held
    exact List.any_eq_true.mpr ⟨field.1, List.mem_map_of_mem listed, same⟩

theorem header?_apply (r : Response) (call : HeaderCall) (n : String) :
    (call.apply r).header? n = (call.sets? n).or ((r.header? n).or (call.defaults? n)) := by
  have written (name : String) (v : Json) :
      ({ r with headers := r.headers.write name v } : Response).header? n =
        if sameName name n then some v else r.header? n := Fields.named?_write ..
  cases call with
  | set name v =>
    rw [apply, Response.setHeader_eq, written, sets?, defaults?, Option.or_none]
    split <;> rfl
  | setDefault name value =>
    rw [apply, Response.setDefaultHeader_eq, sets?, defaults?, Option.none_or]
    cases same : sameName name n with
    | false =>
      rw [if_neg Bool.false_ne_true, Option.or_none]
      split
      · rfl
      · rw [written, same, if_neg Bool.false_ne_true]
    | true =>
      have alike : r.header? name = r.header? n := by
        simp only [Response.header?, sameName_comm _ name, sameName_comm _ n,
          sameName_congr same]
      rw [alike, if_pos rfl]
      cases held : r.header? n with
      | some v => simpa using held
      | none => simp [written, same]

theorem getElem?_apply {i : Nat} {field : String × Json} (there : r.headers[i]? = some field)
    (apart : sameName field.1 call.name = false) : (call.apply r).headers[i]? = some field := by
  obtain ⟨v, written⟩ | ⟨left, -⟩ := apply_cases r call
  · rw [written]
    exact Fields.getElem?_write v there apart
  · rw [left, there]

theorem keys_applyAll (r : Response) (calls : List HeaderCall) :
    (applyAll r calls).headers.keys = (calls.map name).foldl mention r.headers.keys := by
  induction calls generalizing r with
  | nil => rfl
  | cons call calls ih =>
    rw [List.map_cons, List.foldl_cons, ← keys_apply]
    exact ih (call.apply r)

theorem prefix_applyAll (r : Response) (calls : List HeaderCall) :
    r.headers.keys <+: (applyAll r calls).headers.keys := by
  induction calls generalizing r with
  | nil => exact List.prefix_rfl
  | cons call calls ih =>
    have first : r.headers.keys <+: (call.apply r).headers.keys := by
      rw [keys_apply]
      exact prefix_mention ..
    exact first.trans (ih (call.apply r))

theorem distinct_applyAll (distinct : Distinct r.headers.keys) (calls : List HeaderCall) :
    Distinct (applyAll r calls).headers.keys := by
  induction calls generalizing r with
  | nil => exact distinct
  | cons call calls ih =>
    refine ih (r := call.apply r) ?_
    rw [keys_apply]
    exact distinct.mention call.name

/-- The last call that sets a name decides, else what there was, else the first default. -/
theorem header?_applyAll (r : Response) (calls : List HeaderCall) (n : String) :
    (applyAll r calls).header? n =
      (calls.reverse.findSome? (·.sets? n)).or
        ((r.header? n).or (calls.findSome? (·.defaults? n))) := by
  induction calls generalizing r with
  | nil => simp [applyAll]
  | cons call calls ih =>
    have one : [call].findSome? (·.sets? n) = call.sets? n := by
      cases set : call.sets? n <;> simp [set]
    have first : (call :: calls).findSome? (·.defaults? n) =
        (call.defaults? n).or (calls.findSome? (·.defaults? n)) := by
      rw [List.findSome?_cons]
      cases call.defaults? n <;> rfl
    have rest : applyAll r (call :: calls) = applyAll (call.apply r) calls := rfl
    rw [rest, ih, header?_apply, List.reverse_cons, List.findSome?_append, one, first]
    simp only [Option.or_assoc]

theorem getElem?_applyAll {i : Nat} {field : String × Json} (there : r.headers[i]? = some field)
    (apart : ∀ call ∈ calls, sameName field.1 call.name = false) :
    (applyAll r calls).headers[i]? = some field := by
  induction calls generalizing r with
  | nil => exact there
  | cons call calls ih =>
    have first := getElem?_apply there (apart call (by simp))
    exact ih first fun other later => apart other (by simp [later])

end HeaderCall

/-- What calls make of the headers of a response: names stay distinct and keep their first spelling and
place, a value is the last that was set, and what is not mentioned is left alone. -/
structure Called (r : Response) (calls : List HeaderCall) (after : Response) : Prop where
  distinct : Distinct r.headers.keys → Distinct after.headers.keys
  value (n : String) : after.header? n =
    (calls.reverse.findSome? (·.sets? n)).or ((r.header? n).or (calls.findSome? (·.defaults? n)))
  names : after.headers.keys = (calls.map HeaderCall.name).foldl mention r.headers.keys
  kept {before later : List HeaderCall} (split : calls = before ++ later) :
    (HeaderCall.applyAll r before).headers.keys <+: after.headers.keys
  untouched {i : Nat} {field : String × Json} (there : r.headers[i]? = some field)
    (apart : ∀ call ∈ calls, sameName field.1 call.name = false) : after.headers[i]? = some field

theorem called_applyAll (r : Response) (calls : List HeaderCall) :
    Called r calls (HeaderCall.applyAll r calls) where
  distinct distinct := HeaderCall.distinct_applyAll distinct calls
  value := HeaderCall.header?_applyAll r calls
  names := HeaderCall.keys_applyAll r calls
  kept split := by
    rw [split, HeaderCall.applyAll_append]
    exact HeaderCall.prefix_applyAll ..
  untouched := HeaderCall.getElem?_applyAll

/-- Nothing but the headers counts. -/
theorem Called.congr {r after other : Response} {calls : List HeaderCall}
    (called : Called r calls after) (same : other.headers = after.headers) :
    Called r calls other := by
  have value (n : String) : other.header? n = after.header? n := by
    rw [Response.header?, Response.header?, same]
  constructor
  · rw [same]
    exact called.distinct
  · intro n
    rw [value, called.value]
  · rw [same, called.names]
  · rw [same]
    exact called.kept
  · rw [same]
    exact called.untouched

namespace Recipe

/-- The calls that the headers of a recipe stand for. -/
def calls (headers : Fields) : List HeaderCall :=
  headers.map fun header => .set header.1 (headerValue header.2)

theorem setHeaders_eq (headers : Fields) (r : Response) :
    setHeaders headers r = HeaderCall.applyAll r (calls headers) := by
  rw [HeaderCall.applyAll, calls, List.foldl_map]
  rfl

/-- A header that a recipe gives in some spelling has a value. -/
theorem isSome_header? {headers : Fields} {header : String × Json} (given : header ∈ headers)
    {n : String} (same : sameName header.1 n = true) (r : Response) :
    ((setHeaders headers r).header? n).isSome = true := by
  have set : ((calls headers).reverse.findSome? (·.sets? n)).isSome = true := by
    rw [List.findSome?_isSome_iff]
    refine ⟨.set header.1 (headerValue header.2), ?_, by simp [HeaderCall.sets?, same]⟩
    exact List.mem_reverse.mpr (List.mem_map_of_mem given)
  rw [setHeaders_eq, HeaderCall.header?_applyAll, Option.isSome_or, set, Bool.true_or]

end Recipe

namespace Ending

/-- The calls that an ending makes: the type of what is sent, unless there is one. -/
def calls : Ending → List HeaderCall
  | file path =>
    [.setDefault contentTypeName (ContentType.ofExtension (foldName (Path.extension path)))]
  | text _ => [.setDefault contentTypeName ContentType.html]
  | redirect _ | status _ | missing => []

/-- The state in which an ending is made: for a file the one that the snippets in it leave. -/
inductive Readied (h : Host) (ctx : Context) (s : State) : Ending → State → Prop
  | file {path text : String} {t : State} (sent : Sent h ctx path s text t) :
      Readied h ctx s (.file path) t
  | other {ending : Ending} (bare : ∀ path, ending ≠ .file path) : Readied h ctx s ending s

variable {h : Host} {ctx : Context} {ending : Ending} {s t : State}

theorem headers_of_perform (done : (ending.perform h ctx).outcome s = (.ok (), t)) :
    ∃ u, Readied h ctx s ending u ∧
      t.response.headers = (HeaderCall.applyAll u.response ending.calls).headers := by
  cases ending with
  | file path =>
    obtain ⟨text, u, sent, rfl⟩ := replied_of_sendFile done
    exact ⟨u, .file sent, rfl⟩
  | _ =>
    obtain rfl : _ = t := congrArg Prod.snd done
    exact ⟨s, .other nofun, rfl⟩

/-- A content type that is there in some spelling is left as it is. -/
theorem headers_of_typed {r : Response} (typed : (r.header? contentTypeName).isSome = true)
    (ending : Ending) : (HeaderCall.applyAll r ending.calls).headers = r.headers := by
  have left (value : String) : r.setDefaultHeader contentTypeName value = r := by
    rw [Response.setDefaultHeader_eq, if_pos typed]
  cases ending with
  | file path => exact congrArg Response.headers (left _)
  | text body => exact congrArg Response.headers (left _)
  | _ => rfl

end Ending

/-- How a rule that succeeds makes the headers: its draft sets those of its recipe, and its ending calls for
the content type, which is only set where there is none. -/
structure MakesHeaders (h : Host) (ctx : Context) (rule : Rule) (s : State) (made : Json)
    (u v w t : State) : Prop where
  drafted : Drafted h ctx rule s made u
  typed : ∀ header ∈ (Recipe.ofJson made).headers, sameName header.1 contentTypeName = true →
    (u.response.header? contentTypeName).isSome = true
  readied : Ending.Readied h ctx u (Recipe.ofJson made).ending v
  called : Called v.response (Recipe.ofJson made).ending.calls w.response
  kept : (v.response.header? contentTypeName).isSome = true → w.response.headers = v.response.headers
  finished : (Rule.runScript h ctx rule.after).outcome w = (.ok (), t)

/-- Headers form a map in which the case of names does not matter, whatever calls are made on it, and so
under the headers of a rule and the content type of what it sends. -/
structure IgnoresCase : Prop where
  empty : Distinct ({} : Response).headers.keys
  called : ∀ r calls, Called r calls (HeaderCall.applyAll r calls)
  given : ∀ headers r, Called r (Recipe.calls headers) (Recipe.setHeaders headers r)
  made : ∀ (h : Host) (ctx : Context) (rule : Rule) (s t : State),
    (rule.run h ctx).outcome s = (.ok (), t) → ∃ made u v w, MakesHeaders h ctx rule s made u v w t

/-- All that writes headers ignores the case of their names. -/
theorem HeaderCall.applyAll_ignores_case : IgnoresCase := by
  refine ⟨.nil, called_applyAll, fun headers r => ?_, fun h ctx rule s t done => ?_⟩
  · rw [Recipe.setHeaders_eq]
    exact called_applyAll r (Recipe.calls headers)
  · obtain ⟨made, u, w, drafted, ended, finished⟩ := Rule.run_ok_iff.mp done
    obtain ⟨v, readied, headers⟩ := Ending.headers_of_perform ended
    refine ⟨made, u, v, w, drafted, ?_, readied, ?_, ?_, finished⟩
    · intro header given same
      cases drafted with
      | intro => exact Recipe.isSome_header? given same _
    · exact (called_applyAll v.response _).congr headers
    · intro typed
      rw [headers, Ending.headers_of_typed typed]

/-- A content type that is set in two spellings, and defaults before, between and after. -/
def spellings : List HeaderCall :=
  [.setDefault "X-Kind" "first", .set "Content-Type" (.str "text/plain"),
    .setDefault "content-type" ContentType.html, .set "CONTENT-TYPE" (.str "text/csv"),
    .setDefault "x-kind" "second"]

theorem HeaderCall.applyAll_ignores_case_spellings :
    (HeaderCall.applyAll {} spellings).headers.keys = ["X-Kind", "Content-Type"] ∧
    (HeaderCall.applyAll {} spellings).header? "content-type" = some (.str "text/csv") ∧
    (HeaderCall.applyAll {} spellings).header? "X-KIND" = some (.str "first") ∧
    Distinct (HeaderCall.applyAll {} spellings).headers.keys := by
  have after := HeaderCall.applyAll_ignores_case.called {} spellings
  refine ⟨?_, ?_, ?_, after.distinct HeaderCall.applyAll_ignores_case.empty⟩
  · rw [after.names]
    simp [spellings, HeaderCall.name, mention, sameName_eq, Named.keys]
  · rw [after.value]
    simp [spellings, HeaderCall.sets?, sameName_eq]
  · rw [after.value]
    simp [spellings, HeaderCall.sets?, HeaderCall.defaults?, sameName_eq, Response.header?]

end RuleService
