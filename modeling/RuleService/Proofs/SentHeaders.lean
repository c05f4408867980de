import RuleService.Proofs.HeaderMap

namespace RuleService.Http

/-- The texts that may be header names. -/
structure IsName (s : String) : Prop where
  some : s ≠ ""
  token : ∀ c ∈ s.toList, c.isAlphanum = true ∨ c ∈ tokenSigns
  size : s.utf8ByteSize ≤ 65535

/-- The texts that may be header values: no control character but the tab. -/
def IsValue (s : String) : Prop := ∀ c ∈ s.toList, c = '\t' ∨ 32 ≤ c.toNat ∧ c.toNat ≠ 127

instance : DecidablePred IsValue := fun s =>
  List.decidableBAll (fun c => c = '\t' ∨ 32 ≤ c.toNat ∧ c.toNat ≠ 127) s.toList

/-- That a text is a header name and equal to a name up to case. -/
def Names (name key : String) : Prop := IsName key ∧ sameName key name = true

/-- The texts that a value gives to a header: those of its items, or its own. -/
inductive Lines : Json → List String → Prop
  | list (vs : List Json) : Lines (.arr vs) (vs.map Json.display)
  | single {v : Json} (bare : ∀ vs, v ≠ .arr vs) : Lines v [v.display]

theorem isName_iff {s : String} :
    IsName s ↔ isToken s = true ∧ s.utf8ByteSize ≤ nameLimit := by
  have token : isToken s = true ↔
      s ≠ "" ∧ ∀ c ∈ s.toList, c.isAlphanum = true ∨ c ∈ tokenSigns := by
    simp [isToken, isTokenChar]
  rw [token]
  constructor
  · rintro ⟨some, token, size⟩
    exact ⟨⟨some, token⟩, size⟩
  · rintro ⟨⟨some, token⟩, size⟩
    exact ⟨some, token, size⟩

theorem isHeaderValue_iff {s : String} : isHeaderValue s = true ↔ IsValue s := by
  simp [isHeaderValue, isValueChar, IsValue, or_comm]

theorem names_iff {name key : String} :
    Names name key ↔ headerName? key = some (foldName name) := by
  unfold Names headerName?
  rw [isName_iff, sameName_iff]
  split
  · next valid =>
    have valid : isToken key = true ∧ key.utf8ByteSize ≤ nameLimit := by simpa using valid
    simp [valid]
  · next faulty =>
    have faulty : ¬ (isToken key = true ∧ key.utf8ByteSize ≤ nameLimit) := by simpa using faulty
    simp [faulty]

theorem lines_iff {v : Json} {lines : List String} :
    Lines v lines ↔ lines = Reply.valuesOf v := by
  constructor
  · intro given
    cases given with
    | list vs => rfl
    | single bare =>
      cases v with
      | arr vs => exact absurd rfl (bare vs)
      | _ => rfl
  · rintro rfl
    cases v with
    | arr vs => exact .list vs
    | _ => exact .single nofun

namespace Reply

variable {r : Reply} {key n : String} {v : Json}

theorem values_setHeader (r : Reply) (key : String) (v : Json) (n : String) :
    (r.setHeader key v).headers.values n =
      if headerName? key = some n then (valuesOf v).filter isHeaderValue
      else r.headers.values n := by
  cases named : headerName? key with
  | none => simp [setHeader, named]
  | some m =>
    by_cases same : m = n
    · subst same
      have others : (r.headers.remove m).filter (·.1 == m) = [] := by
        simp [Headers.remove]
      simp [setHeader, named, Headers.values, others, List.filter_map, Function.comp_def]
    · have kept : (r.headers.remove m).filter (·.1 == n) = r.headers.filter (·.1 == n) := by
        rw [Headers.remove, List.filter_filter]
        refine List.filter_congr fun field _ => ?_
        by_cases here : field.1 = n <;> simp [here, Ne.symm same]
      simp [setHeader, named, same, Headers.values, kept, List.filter_map, Function.comp_def]

theorem setHeaders_append (r : Reply) (before after : Fields) :
    r.setHeaders (before ++ after) = (r.setHeaders before).setHeaders after := List.foldl_append

theorem setHeaders_cons (r : Reply) (key : String) (v : Json) (headers : Fields) :
    r.setHeaders ((key, v) :: headers) = (r.setHeader key v).setHeaders headers := rfl

/-- Headers of other names do not matter to a name. -/
theorem values_setHeaders {headers : Fields}
    (others : ∀ field ∈ headers, headerName? field.1 ≠ some n) (r : Reply) :
    (r.setHeaders headers).headers.values n = r.headers.values n := by
  induction headers generalizing r with
  | nil => rfl
  | cons field headers ih =>
    rw [setHeaders_cons, ih fun other later => others other (by simp [later]), values_setHeader,
      if_neg (others field (by simp))]

/-- The values of a name are those it had before only as far as no header names it. -/
theorem values_setHeaders_congr {r other : Reply}
    (same : r.headers.values n = other.headers.values n) (headers : Fields) :
    (r.setHeaders headers).headers.values n = (other.setHeaders headers).headers.values n := by
  induction headers generalizing r other with
  | nil => exact same
  | cons field headers ih =>
    refine ih ?_
    rw [values_setHeader, values_setHeader, same]

theorem isValue_setHeader (valid : ∀ field ∈ r.headers, IsValue field.2) (key : String) (v : Json) :
    ∀ field ∈ (r.setHeader key v).headers, IsValue field.2 := by
  intro field listed
  unfold setHeader at listed
  split at listed
  · exact valid field listed
  · rcases List.mem_append.mp listed with kept | added
    · exact valid field ((List.mem_filter.mp kept).1)
    · obtain ⟨text, allowed, rfl⟩ := List.mem_map.mp added
      exact isHeaderValue_iff.mp ((List.mem_filter.mp allowed).2)

theorem isValue_setHeaders {r : Reply} (valid : ∀ field ∈ r.headers, IsValue field.2)
    (headers : Fields) : ∀ field ∈ (r.setHeaders headers).headers, IsValue field.2 := by
  induction headers generalizing r with
  | nil => exact valid
  | cons field headers ih => exact ih (isValue_setHeader valid field.1 field.2)

/-- A name that is none does nothing. -/
theorem setHeader_unnamed (r : Reply) (faulty : ¬ IsName key) (v : Json) :
    r.setHeader key v = r := by
  have unnamed : headerName? key = none := by
    rw [isName_iff] at faulty
    simpa [headerName?] using faulty
  rw [setHeader, unnamed]

theorem setHeader_congr {v w : Json} (r : Reply) (key : String)
    (same : (valuesOf v).filter isHeaderValue = (valuesOf w).filter isHeaderValue) :
    r.setHeader key v = r.setHeader key w := by
  unfold setHeader
  rw [same]

/-- The reply for a response before the headers of the response are set. -/
def bare (r : Response) : Reply :=
  match r.redirect with
  | some target => redirect (statusOf r.status) target
  | none => withBody (statusOf r.status) r.body

theorem ofResponse_eq (r : Response) : ofResponse r = (bare r).setHeaders r.headers := rfl

end Reply

/-- The content type of a body, unless one is given. -/
def bodyType : Json → String
  | .null | .str _ => "text/plain; charset=utf-8"
  | _ => "application/json"

/-- The values of a name that the response does not give: the target of a redirect as the location, and
without a redirect the type of the body. -/
def usual (r : Response) (name : String) : List String :=
  match r.redirect with
  | some target => if sameName name "location" ∧ IsValue target then [target] else []
  | none => if sameName name "content-type" then [bodyType r.body] else []

theorem isValue_type : IsValue "text/plain; charset=utf-8" ∧ IsValue "application/json" := by
  decide +kernel

namespace Reply

theorem headers_withBody (status : Nat) (v : Json) :
    (withBody status v).headers = [("content-type", bodyType v)] := by
  cases v <;> rfl

theorem isValue_bare (r : Response) : ∀ field ∈ (bare r).headers, IsValue field.2 := by
  intro field listed
  unfold bare at listed
  cases left : r.redirect with
  | some target =>
    simp only [left, redirect] at listed
    split at listed
    · next valid =>
      obtain rfl : field = ("location", target) := by simpa using listed
      exact isHeaderValue_iff.mp valid
    · cases listed
  | none =>
    simp only [left, headers_withBody] at listed
    obtain rfl : field = ("content-type", bodyType r.body) := by simpa using listed
    unfold bodyType
    split
    · exact isValue_type.1
    · exact isValue_type.1
    · exact isValue_type.2

theorem values_bare (r : Response) (name : String) :
    (bare r).headers.values (foldName name) = usual r name := by
  have location : foldName "location" = "location" := by
    rw [foldName, ← String.toList_inj, String.toList_map]
    decide
  have contentType : foldName "content-type" = "content-type" := by
    rw [foldName, ← String.toList_inj, String.toList_map]
    decide
  unfold bare usual
  cases left : r.redirect with
  | some target =>
    simp only [redirect, isHeaderValue_iff, sameName_iff, location]
    by_cases valid : IsValue target
    · by_cases same : foldName name = "location"
      · simp [valid, same, Headers.values]
      · simp [valid, same, Ne.symm same, Headers.values]
    · simp [valid, Headers.values]
  | none =>
    simp only [headers_withBody, sameName_iff, contentType]
    by_cases same : foldName name = "content-type"
    · simp [same, Headers.values]
    · simp [same, Ne.symm same, Headers.values]

variable {r : Response} {before after : Fields} {key : String} {v w : Json}

/-- One of the headers of a response is set after those before it and before those after it. -/
theorem ofResponse_split (split : r.headers = before ++ (key, v) :: after) :
    ofResponse r = (((bare r).setHeaders before).setHeader key v).setHeaders after := by
  rw [ofResponse_eq, split, setHeaders_append, setHeaders_cons]

theorem ofResponse_without (r : Response) (before after : Fields) :
    ofResponse { r with headers := before ++ after } =
      ((bare r).setHeaders before).setHeaders after := setHeaders_append ..

/-- Of the value of a header only the lines that may be sent count. -/
theorem ofResponse_congr (split : r.headers = before ++ (key, v) :: after)
    (same : (valuesOf v).filter isHeaderValue = (valuesOf w).filter isHeaderValue) :
    ofResponse r = ofResponse { r with headers := before ++ (key, w) :: after } := by
  have other : ofResponse { r with headers := before ++ (key, w) :: after } =
      (((bare r).setHeaders before).setHeader key w).setHeaders after := ofResponse_split rfl
  rw [ofResponse_split split, other, setHeader_congr _ key same]

/-- The last header of a name gives it its values. -/
theorem values_last {name : String} (split : r.headers = before ++ (key, v) :: after)
    (named : Names name key) (last : ∀ field ∈ after, ¬ Names name field.1) :
    (ofResponse r).headers.values (foldName name) = (valuesOf v).filter isHeaderValue := by
  have others : ∀ field ∈ after, headerName? field.1 ≠ some (foldName name) :=
    fun field later => mt names_iff.mpr (last field later)
  rw [ofResponse_split split, values_setHeaders others, values_setHeader,
    if_pos (names_iff.mp named)]

/-- A header changes nothing but the values of its own name. -/
theorem values_frame {name : String} (split : r.headers = before ++ (key, v) :: after)
    (other : ¬ Names name key) :
    (ofResponse r).headers.values (foldName name) =
      (ofResponse { r with headers := before ++ after }).headers.values (foldName name) := by
  rw [ofResponse_split split, ofResponse_without]
  refine values_setHeaders_congr ?_ after
  rw [values_setHeader, if_neg (mt names_iff.mpr other)]

/-- The target of a redirect changes nothing but the location. -/
theorem values_redirect {target name : String} (left : r.redirect = some target) (other : String)
    (apart : sameName name "location" = false) :
    (ofResponse r).headers.values (foldName name) =
      (ofResponse { r with redirect := some other }).headers.values (foldName name) := by
  have unmoved : usual r name = usual { r with redirect := some other } name := by
    simp [usual, left, apart]
  rw [ofResponse_eq, ofResponse_eq]
  refine values_setHeaders_congr ?_ r.headers
  rw [values_bare, values_bare, unmoved]

end Reply

/-- What is left out of a reply takes nothing with it: a name that is none takes its field, and a value
that no header can hold takes itself. -/
structure LeftOut (r : Response) (before : Fields) (key : String) (v : Json) (after : Fields) : Prop where
  unnamed : ¬ IsName key → Reply.ofResponse r = Reply.ofResponse { r with headers := before ++ after }
  status : (Reply.ofResponse r).status =
    (Reply.ofResponse { r with headers := before ++ after }).status
  body : (Reply.ofResponse r).body = (Reply.ofResponse { r with headers := before ++ after }).body
  others : ∀ name, ¬ Names name key → (Reply.ofResponse r).headers.values (foldName name) =
    (Reply.ofResponse { r with headers := before ++ after }).headers.values (foldName name)
  line : ∀ vs x ws, v = .arr (vs ++ x :: ws) → ¬ IsValue x.display →
    Reply.ofResponse r =
      Reply.ofResponse { r with headers := before ++ (key, .arr (vs ++ ws)) :: after }
  value : (∀ vs, v ≠ .arr vs) → ¬ IsValue v.display →
    Reply.ofResponse r = Reply.ofResponse { r with headers := before ++ (key, .arr []) :: after }

/-- The headers that are sent: of each name the values that its last spelling gives, and else the usual
ones. No value that a header cannot hold is among them, and what is left out takes nothing with it. -/
structure Sends (r : Response) : Prop where
  last : ∀ name before key v after lines, r.headers = before ++ (key, v) :: after → Names name key →
    (∀ field ∈ after, ¬ Names name field.1) → Lines v lines →
    (Reply.ofResponse r).headers.values (foldName name) = lines.filter (IsValue ·)
  absent : ∀ name, (∀ field ∈ r.headers, ¬ Names name field.1) →
    (Reply.ofResponse r).headers.values (foldName name) = usual r name
  valid : ∀ field ∈ (Reply.ofResponse r).headers, IsValue field.2
  leftOut : ∀ before key v after, r.headers = before ++ (key, v) :: after →
    LeftOut r before key v after
  /-- A target that cannot be sent takes nothing with it but the location. -/
  target : ∀ target other, r.redirect = some target →
    let elsewhere := Reply.ofResponse { r with redirect := some other }
    (Reply.ofResponse r).status = elsewhere.status ∧
    (Reply.ofResponse r).body = elsewhere.body ∧
    ∀ name, sameName name "location" = false →
      (Reply.ofResponse r).headers.values (foldName name) =
        elsewhere.headers.values (foldName name)

theorem isHeaderValue_of_not {text : String} (faulty : ¬ IsValue text) :
    isHeaderValue text = false := by
  rwa [← Bool.not_eq_true, isHeaderValue_iff]

theorem Reply.leftOut {r : Response} {before after : Fields} {key : String} {v : Json}
    (split : r.headers = before ++ (key, v) :: after) : LeftOut r before key v after where
  unnamed faulty := by
    rw [ofResponse_split split, setHeader_unnamed _ faulty]
    exact (ofResponse_without r before after).symm
  status := by simp [ofResponse_eq, bare]
  body := by simp [ofResponse_eq, bare]
  others name other := values_frame split other
  line := by
    rintro vs x ws rfl faulty
    refine ofResponse_congr split ?_
    simp [valuesOf, isHeaderValue_of_not faulty]
  value single faulty := by
    refine ofResponse_congr split ?_
    rw [← lines_iff.mp (Lines.single single)]
    simp [valuesOf, isHeaderValue_of_not faulty]

/-- A reply has the headers of its response, as far as they can be sent. -/
theorem Reply.ofResponse_headers (r : Response) : Sends r where
  last name before key v after lines split named last given := by
    rw [values_last split named last, lines_iff.mp given]
    refine List.filter_congr fun line _ => ?_
    rw [Bool.eq_iff_iff, decide_eq_true_iff, isHeaderValue_iff]
  absent name absent := by
    rw [ofResponse_eq, values_setHeaders, values_bare]
    exact fun field listed => mt names_iff.mpr (absent field listed)
  valid := isValue_setHeaders (isValue_bare r) r.headers
  leftOut before key v after split := leftOut split
  target target other left := by
    have moved := ofResponse_redirect left
    have movedElsewhere : (ofResponse { r with redirect := some other }).body = "" ∧
        (ofResponse { r with redirect := some other }).status = _ := ofResponse_redirect rfl
    refine ⟨?_, ?_, fun name apart => values_redirect left other apart⟩
    · rw [moved.2, movedElsewhere.2]
    · rw [moved.1, movedElsewhere.1]

/-- Two spellings of a name, a line that is refused in the last one, and a name that is none. -/
def twiceSpelt : Response where
  headers := [("X-Id", .str "1"), ("a b", .str "c"),
    ("x-id", .arr [.str "2\r\nSet-Cookie: a", .int 3])]
  body := .str "text"

theorem Reply.ofResponse_headers_twiceSpelt :
    (Reply.ofResponse twiceSpelt).headers.values (foldName "X-ID") = ["3"] ∧
    (Reply.ofResponse twiceSpelt).headers.values (foldName "Content-Type") =
      ["text/plain; charset=utf-8"] := by
  have sends := Reply.ofResponse_headers twiceSpelt
  have isName : IsName "x-id" := ⟨by decide, by simp [tokenSigns], by decide⟩
  have named : Names "X-ID" "x-id" := ⟨isName, by simp [sameName_eq]⟩
  constructor
  · rw [sends.last "X-ID" (twiceSpelt.headers.take 2) "x-id" _ [] _ rfl named (by simp) (.list _)]
    decide +kernel
  · rw [sends.absent]
    · simp [usual, twiceSpelt, bodyType, sameName_eq]
    · simp [twiceSpelt, Names, sameName_eq]

end RuleService.Http
