import Mathlib.Data.List.Forall2
import RuleService.Proofs.Parts
import RuleService.Snippet.Engine

namespace RuleService

namespace Json

/-- That a value stands for another one up to the order of keys and the form of numbers: one beyond
the integers of the engine may be the nearest binary64 number. No document holds NaN or an infinity;
they may be null. -/
inductive Alike : Json → Json → Prop
  | null : Alike .null .null
  | bool (b : Bool) : Alike (.bool b) (.bool b)
  | int (n : Int) : Alike (.int n) (.int n)
  | rounded (n : Int) (beyond : Snippet.Value.isInt n = false) :
      Alike (.int n) (ofDouble (Double.ofInt n))
  | float (d : Double) : Alike (.float d) (.float d)
  | undefined (d : Double) (endless : d.isFinite = false) : Alike (.float d) .null
  | str (s : String) : Alike (.str s) (.str s)
  | arr {vs ws : List Json} (items : List.Forall₂ Alike vs ws) : Alike (.arr vs) (.arr ws)
  | obj {before after : Fields}
      (missing : ∀ key, Named.get? before key = none ↔ Named.get? after key = none)
      (found : ∀ key v w, Named.get? before key = some v → Named.get? after key = some w →
        Alike v w) :
      Alike (.obj before) (.obj after)

theorem Alike.refl (v : Json) : v.Alike v := by
  induction v using size_induction with
  | step v ih =>
    cases v with
    | null => exact .null
    | bool b => exact .bool b
    | int n => exact .int n
    | float d => exact .float d
    | str s => exact .str s
    | arr vs =>
      apply Alike.arr
      apply List.forall₂_same.mpr
      intro v member
      exact ih v (sizeOf_item_lt member)
    | obj fields =>
      refine .obj (fun key => Iff.rfl) ?_
      intro key v w before after
      obtain rfl : v = w := Option.some.inj (before.symm.trans after)
      exact ih v (sizeOf_field_lt (Fields.mem_of_get? before))

/-- Objects that are alike have the same keys. -/
theorem Alike.absent_iff {before after : Fields} (alike : Alike (.obj before) (.obj after))
    (key : String) : Named.get? before key = none ↔ Named.get? after key = none := by
  cases alike with
  | obj missing found => exact missing key

/-- What an engine gives back of a value that it was given. -/
def exchanged (v : Json) : Held := (Snippet.Value.ofJson v).toJson?

end Json

namespace Snippet.Value

theorem entry?_setEntry_self (entries : Entries) (key : String) (v : Value) :
    entry? (setEntry entries key v) key = some v := by
  induction entries with
  | nil => simp [setEntry, entry?]
  | cons e rest ih =>
    obtain ⟨k, old⟩ := e
    simp only [ entry?] at ih
    by_cases same : key = k
    · simp [setEntry, entry?, same]
    · have other : (key == k) = false := by simp [same]
      by_cases earlier : key < k
      · simp [setEntry, entry?, same, earlier]
      · simp [setEntry, entry?, earlier, List.lookup_cons, other, ih]

theorem entry?_setEntry_of_ne (entries : Entries) {key other : String} (v : Value)
    (differs : other ≠ key) : entry? (setEntry entries key v) other = entry? entries other := by
  have apart : (other == key) = false := by simp [differs]
  induction entries with
  | nil => simp [setEntry, entry?, List.lookup_cons, apart]
  | cons e rest ih =>
    obtain ⟨k, old⟩ := e
    simp only [ entry?] at ih
    by_cases same : key = k
    · subst same
      simp [setEntry, entry?, List.lookup_cons, apart]
    · by_cases earlier : key < k
      · simp [setEntry, entry?, same, earlier, List.lookup_cons, apart]
      · simp [setEntry, entry?, same, earlier, List.lookup_cons, ih]

theorem mem_setEntry {entries : Entries} {key : String} {v : Value} {e : String × Value}
    (member : e ∈ setEntry entries key v) : e = (key, v) ∨ e ∈ entries := by
  induction entries with
  | nil =>
    left
    simpa [setEntry] using member
  | cons first rest ih =>
    obtain ⟨k, old⟩ := first
    by_cases same : key = k
    · rw [setEntry, if_pos (by simp [same])] at member
      rcases List.mem_cons.mp member with rfl | later
      · exact .inl rfl
      · exact .inr (List.mem_cons_of_mem _ later)
    · rw [setEntry, if_neg (by simp [same])] at member
      split at member
      · rcases List.mem_cons.mp member with rfl | later
        · exact .inl rfl
        · exact .inr later
      · rcases List.mem_cons.mp member with rfl | later
        · exact .inr List.mem_cons_self
        · rcases ih later with set | kept
          · exact .inl set
          · exact .inr (List.mem_cons_of_mem _ kept)

theorem entry?_ofJsonFields (fields : Fields) (key : String) :
    entry? (ofJsonFields fields) key = (Named.get? fields key).map ofJson := by
  induction fields with
  | nil => rfl
  | cons kv rest ih =>
    obtain ⟨k, v⟩ := kv
    rw [ofJsonFields]
    by_cases same : key = k
    · subst same
      simp [entry?_setEntry_self, Named.get?]
    · have other : (key == k) = false := by simp [same]
      rw [entry?_setEntry_of_ne _ _ same, ih]
      simp [Named.get?, List.lookup_cons, other]

theorem mem_ofJsonFields {fields : Fields} {e : String × Value}
    (member : e ∈ ofJsonFields fields) : ∃ field ∈ fields, e = (field.1, ofJson field.2) := by
  induction fields with
  | nil => cases member
  | cons kv rest ih =>
    rcases mem_setEntry member with rfl | later
    · exact ⟨kv, List.mem_cons_self, rfl⟩
    · obtain ⟨field, inRest, eq⟩ := ih later
      exact ⟨field, List.mem_cons_of_mem _ inRest, eq⟩

/-- The fields of a map in JSON have the JSON forms of its entries. -/
theorem get?_of_toJsonEntries {entries : Entries} {fields : Fields}
    (told : toJsonEntries? entries = some fields) (key : String) :
    Named.get? fields key = ( entry? entries key).bind toJson? := by
  induction entries generalizing fields with
  | nil =>
    cases told
    rfl
  | cons e rest ih =>
    obtain ⟨k, v⟩ := e
    simp only [toJsonEntries?, Option.bind_eq_bind, Option.bind_eq_some_iff] at told
    obtain ⟨x, first, xs, others, eq⟩ := told
    cases eq
    have later := ih others
    simp only [Named.get?, entry?] at later
    by_cases same : key = k
    · simp [Named.get?, entry?, same, first]
    · have other : (key == k) = false := by simp [same]
      simp [Named.get?, entry?, List.lookup_cons, other, later]

theorem toJsonEntries_isSome {entries : Entries}
    (each : ∀ e ∈ entries, e.2.toJson?.isSome = true) :
    ∃ fields, toJsonEntries? entries = some fields := by
  induction entries with
  | nil => exact ⟨[], rfl⟩
  | cons e rest ih =>
    obtain ⟨x, first⟩ := Option.isSome_iff_exists.mp (each e List.mem_cons_self)
    obtain ⟨xs, others⟩ := ih (fun e later => each e (List.mem_cons_of_mem _ later))
    exact ⟨(e.1, x) :: xs, by simp [toJsonEntries?, first, others]⟩

theorem toJson_of_mem {entries : Entries} {fields : Fields} {e : String × Value}
    (told : toJsonEntries? entries = some fields) (member : e ∈ entries) :
    e.2.toJson?.isSome = true := by
  induction entries generalizing fields with
  | nil => cases member
  | cons first rest ih =>
    obtain ⟨k, v⟩ := first
    simp only [toJsonEntries?, Option.bind_eq_bind, Option.bind_eq_some_iff] at told
    obtain ⟨x, form, xs, others, -⟩ := told
    rcases List.mem_cons.mp member with rfl | later
    · exact Option.isSome_iff_exists.mpr ⟨x, form⟩
    · exact ih others later

/-- Setting a key of a map sets the key of its JSON form, up to the order of keys. -/
theorem toJsonEntries_setEntry {entries : Entries} {before : Fields} {v : Value} {x : Json}
    (told : toJsonEntries? entries = some before) (form : v.toJson? = some x) (key : String) :
    ∃ after, toJsonEntries? (setEntry entries key v) = some after ∧
      ∀ k, Named.get? after k = Named.get? (before.put key x) k := by
  have each : ∀ e ∈ setEntry entries key v, e.2.toJson?.isSome = true := by
    intro e member
    rcases mem_setEntry member with rfl | kept
    · exact Option.isSome_iff_exists.mpr ⟨x, form⟩
    · exact toJson_of_mem told kept
  obtain ⟨after, eq⟩ := toJsonEntries_isSome each
  refine ⟨after, eq, ?_⟩
  intro k
  rw [get?_of_toJsonEntries eq]
  by_cases same : k = key
  · subst same
    rw [entry?_setEntry_self, Named.get?_put_self, Option.bind_some, form]
  · rw [entry?_setEntry_of_ne entries v same, Named.get?_put_of_ne before x same,
      get?_of_toJsonEntries told]

end Snippet.Value

namespace Json

open Snippet

theorem exchanged_items {vs : List Json}
    (each : ∀ v ∈ vs, ∃ w, v.exchanged = some w ∧ v.Alike w) :
    ∃ ws, Value.toJsonItems? (Value.ofJsonItems vs) = some ws ∧ List.Forall₂ Alike vs ws := by
  induction vs with
  | nil => exact ⟨[], rfl, .nil⟩
  | cons v vs ih =>
    obtain ⟨w, given, alike⟩ := each v List.mem_cons_self
    obtain ⟨ws, others, alikes⟩ := ih (fun v later => each v (List.mem_cons_of_mem _ later))
    rw [exchanged] at given
    exact ⟨w :: ws, by simp [Value.ofJsonItems, Value.toJsonItems?, given, others],
      .cons alike alikes⟩

theorem exchanged_fields {fields : Fields}
    (each : ∀ field ∈ fields, ∃ w, field.2.exchanged = some w ∧ field.2.Alike w) :
    ∃ after, Value.toJsonEntries? (Value.ofJsonFields fields) = some after ∧
      Alike (.obj fields) (.obj after) := by
  have told : ∀ e ∈ Value.ofJsonFields fields, e.2.toJson?.isSome = true := by
    intro e member
    obtain ⟨field, inFields, rfl⟩ := Value.mem_ofJsonFields member
    obtain ⟨w, given, -⟩ := each field inFields
    exact Option.isSome_iff_exists.mpr ⟨w, given⟩
  obtain ⟨after, eq⟩ := Value.toJsonEntries_isSome told
  have looked (key : String) : Named.get? after key = (Named.get? fields key).bind exchanged := by
    rw [Value.get?_of_toJsonEntries eq, Value.entry?_ofJsonFields, Option.bind_map]
    rfl
  refine ⟨after, eq, .obj ?_ ?_⟩
  · intro key
    rw [looked key]
    cases held : Named.get? fields key with
    | none => simp
    | some v =>
      obtain ⟨w, given, -⟩ := each (key, v) (Fields.mem_of_get? held)
      simp [given]
  · intro key v w before now
    obtain ⟨w', given, alike⟩ := each (key, v) (Fields.mem_of_get? before)
    rw [looked key, before, Option.bind_some] at now
    obtain rfl : w' = w := Option.some.inj (given.symm.trans now)
    exact alike

/-- Every value comes back from the engine, and is alike. -/
theorem exchanged_alike (v : Json) : ∃ w, v.exchanged = some w ∧ v.Alike w := by
  induction v using size_induction with
  | step v ih =>
    cases v with
    | null => exact ⟨.null, rfl, .null⟩
    | bool b => exact ⟨.bool b, rfl, .bool b⟩
    | str s => exact ⟨.str s, rfl, .str s⟩
    | int n =>
      cases within : Value.isInt n with
      | true => exact ⟨.int n, by simp [exchanged, Value.ofJson, within, Value.toJson?], .int n⟩
      | false =>
        exact ⟨ofDouble (Double.ofInt n), by simp [exchanged, Value.ofJson, within, Value.toJson?],
          .rounded n within⟩
    | float d =>
      cases finite : d.isFinite with
      | true =>
        exact ⟨.float d, by simp [exchanged, Value.ofJson, Value.toJson?, ofDouble, finite],
          .float d⟩
      | false =>
        exact ⟨.null, by simp [exchanged, Value.ofJson, Value.toJson?, ofDouble, finite],
          .undefined d finite⟩
    | arr vs =>
      obtain ⟨ws, told, alikes⟩ := exchanged_items fun v member => ih v (sizeOf_item_lt member)
      exact ⟨.arr ws, by simp [exchanged, Value.ofJson, Value.toJson?, told], .arr alikes⟩
    | obj fields =>
      have inner (field : String × Json) (member : field ∈ fields) :
          ∃ w, field.2.exchanged = some w ∧ field.2.Alike w :=
        ih field.2 (sizeOf_field_lt member)
      obtain ⟨after, told, alike⟩ := exchanged_fields inner
      exact ⟨.obj after, by simp [exchanged, Value.ofJson, Value.toJson?, told], alike⟩

/-- The entries of an object come back as those of an object. -/
theorem exchanged_entries (fields : Fields) :
    ∃ after, Value.toJsonEntries? (Value.ofJsonFields fields) = some after ∧
      Alike (.obj fields) (.obj after) :=
  exchanged_fields fun field _ => exchanged_alike field.2

theorem exchanged_obj (fields : Fields) :
    ∃ after, (Json.obj fields).exchanged = some (.obj after) ∧
      Alike (.obj fields) (.obj after) := by
  obtain ⟨after, told, alike⟩ := exchanged_entries fields
  exact ⟨after, by simp [exchanged, Value.ofJson, Value.toJson?, told], alike⟩

end Json

namespace Snippet.Value

/-- The value of a handle of a response: a map of its four fields. -/
def handle (body headers redirect status : Value) : Value :=
  .map [("body", body), ("headers", headers), ("redirect", redirect), ("status", status)]

theorem ofJson_response (r : Response) :
    ofJson r.toJson = handle (ofJson r.body) (ofJson (.obj r.headers))
      (ofJson (r.redirect.elim .null .str)) (ofJson (.int r.status)) := by
  have keys : "body" < "redirect" ∧ "body" < "headers" ∧ "headers" < "redirect" ∧
      "headers" < "status" ∧ "redirect" < "status" := by decide
  obtain ⟨h₁, h₂, h₃, h₄, h₅⟩ := keys
  have h₆ : ¬ "headers" < "body" := by decide
  have h₇ : ¬ "status" < "body" := by decide
  have h₈ : ¬ "status" < "headers" := by decide
  have h₉ : ¬ "status" < "redirect" := by decide
  simp [Response.toJson, ofJson, ofJsonFields, setEntry, handle, h₁, h₃, h₆, h₇, h₈, h₉]

/-- What a handle stands for whose fields have JSON forms. -/
theorem response_of_handle {body redirect status : Value} {headers : Entries} {b rd : Json}
    {hs : Fields} {n : Nat} {target : Option String} (hb : body.toJson? = some b)
    (hh : toJsonEntries? headers = some hs) (hr : redirect.toJson? = some rd)
    (ht : Response.redirectOf? (some rd) = some target) (hn : status.toJson? = some (.int n))
    (fits : n ≤ Response.greatestStatus) :
    (handle body (.map headers) redirect status).toJson?.bind Response.ofJson? =
      some { status := n, headers := hs, body := b, redirect := target } := by
  have inRange : Response.statusOf? (some (.int n)) = some n := by
    simp [Response.statusOf?, fits]
  simp [handle, toJson?, toJsonEntries?, hb, hh, hr, hn, Response.ofJson?, Named.get?,
    List.lookup_cons, inRange, ht, Response.headersOf?]

end Snippet.Value

namespace Response

/-- That a response stands for another one up to the order of keys and the form of numbers. -/
structure Alike (r t : Response) : Prop where
  status : t.status = r.status
  headers : Json.Alike (.obj r.headers) (.obj t.headers)
  body : Json.Alike r.body t.body
  redirect : t.redirect = r.redirect

theorem Alike.refl (r : Response) : r.Alike r := ⟨rfl, .refl _, .refl _, rfl⟩

theorem isInt_of_status {n : Nat} (fits : n ≤ greatestStatus) :
    Snippet.Value.isInt (n : Int) = true := by
  have least : Snippet.Value.leastInt = -9223372036854775808 := by decide
  have greatest : Snippet.Value.greatestInt = 9223372036854775807 := by decide
  have bound : n ≤ 65535 := fits
  simp only [Snippet.Value.isInt, least, greatest, Bool.and_eq_true, decide_eq_true_eq]
  omega

theorem redirectOf_exchanged (redirect : Option String) :
    ∃ v, (redirect.elim Json.null Json.str).exchanged = some v ∧
      redirectOf? (some v) = some redirect := by
  cases redirect with
  | none => exact ⟨.null, rfl, rfl⟩
  | some target => exact ⟨.str target, rfl, rfl⟩

/-- A response comes back from the engine, and is alike. -/
theorem exchanged_alike (r : Response) (fits : r.status ≤ greatestStatus) :
    ∃ t, r.toJson.exchanged.bind ofJson? = some t ∧ r.Alike t := by
  obtain ⟨b, hb, bodies⟩ := Json.exchanged_alike r.body
  obtain ⟨rd, hr, ht⟩ := redirectOf_exchanged r.redirect
  obtain ⟨hs, hh, headers⟩ := Json.exchanged_entries r.headers
  have hn : (Snippet.Value.ofJson (.int r.status)).toJson? = some (.int r.status) := by
    simp [Snippet.Value.ofJson, isInt_of_status fits, Snippet.Value.toJson?]
  refine ⟨{ status := r.status, headers := hs, body := b, redirect := r.redirect }, ?_,
    rfl, headers, bodies, rfl⟩
  rw [Json.exchanged, Snippet.Value.ofJson_response]
  exact Snippet.Value.response_of_handle hb hh hr ht hn fits

end Response

end RuleService
