import RuleService.Json.Record
import RuleService.Proofs.Bindings

namespace RuleService.Json

theorem decoded_map_iff {α β : Type} {f : α → β} {r : Decoded α} {y : β} :
    f <$> r = .ok y ↔ ∃ x, r = .ok x ∧ y = f x := by
  cases r <;> simp [Functor.map, Except.map, eq_comm]

theorem decoded_bind_iff {α β : Type} {f : α → Decoded β} {r : Decoded α} {y : β} :
    r >>= f = .ok y ↔ ∃ x, r = .ok x ∧ f x = .ok y := by
  cases r <;> simp [bind, Except.bind]

namespace Draft

variable {α : Type} {v : Draft}

theorem unexpected_ne_ok {expected : String} {x : α} : v.unexpected expected ≠ .ok x := by
  rw [unexpected]
  cases v.describe <;> nofun

theorem text_ok_iff {expected x : String} : Draft.text expected v = .ok x ↔ v = .str x := by
  cases v with
  | str s => simp [Draft.text]
  | _ => exact ⟨fun read => absurd read unexpected_ne_ok, nofun⟩

theorem boolean_ok_iff {b : Bool} : Draft.boolean v = .ok b ↔ v = .bool b := by
  cases v with
  | bool b => simp [Draft.boolean]
  | _ => exact ⟨fun read => absurd read unexpected_ne_ok, nofun⟩

theorem natural_ok_iff {limit n : Nat} {expected : String} :
    Draft.natural limit expected v = .ok n ↔ v = .int n ∧ n ≤ limit := by
  cases v with
  | int k =>
    rw [Draft.natural]
    split
    · next fits =>
      constructor
      · intro read
        have same : k.toNat = n := Except.ok.inj read
        exact ⟨congrArg Draft.int (by omega), by omega⟩
      · rintro ⟨same, -⟩
        have same : k = n := Draft.int.inj same
        exact congrArg Except.ok (by omega)
    · next refused =>
      refine ⟨nofun, fun ⟨same, fits⟩ => absurd ?_ refused⟩
      have same : k = n := Draft.int.inj same
      omega
  | _ => exact ⟨fun read => absurd read unexpected_ne_ok, nofun⟩

theorem entries_ok_iff {expected : String} {fields : List (String × Draft)}
    {texts : List (String × String)} : Draft.entries (Draft.text expected) fields = .ok texts ↔
      fields = texts.map fun entry => (entry.1, .str entry.2) := by
  induction fields generalizing texts with
  | nil => cases texts <;> simp [Draft.entries]
  | cons field fields ih =>
    obtain ⟨name, v⟩ := field
    constructor
    · intro read
      obtain ⟨path, first, read⟩ := decoded_bind_iff.mp read
      obtain ⟨rest, later, read⟩ := decoded_bind_iff.mp read
      rw [← Except.ok.inj read, text_ok_iff.mp first, ih.mp later, List.map_cons]
    · intro given
      cases texts with
      | nil => cases given
      | cons entry texts =>
        obtain ⟨⟨rfl, rfl⟩, rest⟩ : (name = entry.1 ∧ v = .str entry.2) ∧
            fields = texts.map fun entry => (entry.1, .str entry.2) := by simpa using given
        refine decoded_bind_iff.mpr ⟨entry.2, text_ok_iff.mpr rfl, ?_⟩
        exact decoded_bind_iff.mpr ⟨texts, ih.mpr rest, rfl⟩

theorem map_ok_iff {expected : String} {texts : List (String × String)} :
    Draft.map (Draft.text expected) v = .ok texts ↔
      v = .obj (texts.map fun entry => (entry.1, .str entry.2)) none := by
  cases v with
  | obj fields fault =>
    rw [Draft.map, Draft.obj.injEq, ← entries_ok_iff]
    cases Draft.entries (Draft.text expected) fields with
    | error misfit => simp [bind, Except.bind]
    | ok rest =>
      cases fault <;> simp [bind, Except.bind, pure, Except.pure, refuse, formed, Except.mapError]
  | _ => exact ⟨fun read => absurd read unexpected_ne_ok, nofun⟩

/-- What is read as a text, as a truth value, and as a natural number up to a limit. -/
def ReadsText (v : Draft) (x : String) : Prop := v = .str x

def ReadsBoolean (v : Draft) (b : Bool) : Prop := v = .bool b

def ReadsNatural (limit : Nat) (v : Draft) (n : Nat) : Prop := v = .int n ∧ n ≤ limit

theorem ReadsText.unique {x y : String} (reads : ReadsText v x) (reads' : ReadsText v y) : x = y :=
  Draft.str.inj (reads.symm.trans reads')

theorem ReadsBoolean.unique {x y : Bool} (reads : ReadsBoolean v x) (reads' : ReadsBoolean v y) : x = y :=
  Draft.bool.inj (reads.symm.trans reads')

theorem ReadsNatural.unique {limit x y : Nat} (reads : ReadsNatural limit v x)
    (reads' : ReadsNatural limit v y) : x = y :=
  Int.ofNat_inj.mp (Draft.int.inj (reads.1.symm.trans reads'.1))

end Draft

namespace RecordKind

variable {σ α : Type} {kind : RecordKind σ} {start s t : σ} {v : Draft} {seen : List String}
  {fields given : List (String × Draft)} {items : List Draft} {name : String}

/-- Gives fields their values, one after the other. -/
def setAll (kind : RecordKind σ) : σ → List (String × Draft) → Decoded σ
  | s, [] => .ok s
  | s, (name, v) :: rest => do
    let s ← kind.set s name v
    setAll kind s rest

theorem setAll_cons_iff : kind.setAll s ((name, v) :: given) = .ok t ↔
    ∃ u, kind.set s name v = .ok u ∧ kind.setAll u given = .ok t := by
  rw [setAll, decoded_bind_iff]

/-- The fields of an object that a kind knows. -/
def known (kind : RecordKind σ) (fields : List (String × Draft)) : List (String × Draft) :=
  fields.filter fun field => kind.fields.contains field.1

/-- The values that a draft gives to the fields of a kind: those of an object that are known, each given
once, or those of an array in the order of the kind. -/
inductive Gives (kind : RecordKind σ) : Draft → List (String × Draft) → Prop
  | object {fields : List (String × Draft)}
      (passed : ∀ field ∈ fields, field.1 ∉ kind.fields → field.2.skip = .ok ())
      (once : ((kind.known fields).map (·.1)).Nodup) : Gives kind (.obj fields none) (kind.known fields)
  | array {items : List Draft} (short : items.length ≤ kind.fields.length) :
      Gives kind (.arr items none) (kind.fields.zip items)

theorem known_cons_of_mem (isKnown : name ∈ kind.fields) (v : Draft) (fields : List (String × Draft)) :
    kind.known ((name, v) :: fields) = (name, v) :: kind.known fields := by
  simp [known, isKnown]

theorem known_cons_of_not_mem (unknown : name ∉ kind.fields) (v : Draft)
    (fields : List (String × Draft)) : kind.known ((name, v) :: fields) = kind.known fields := by
  simp [known, unknown]

theorem readFields_known (isKnown : name ∈ kind.fields) (fresh : name ∉ seen) :
    kind.readFields seen s ((name, v) :: fields) =
      kind.set s name v >>= fun s => kind.readFields (name :: seen) s fields := by
  simp [readFields, isKnown, fresh]

theorem readFields_unknown (unknown : name ∉ kind.fields) :
    kind.readFields seen s ((name, v) :: fields) =
      formed v.skip >>= fun _ => kind.readFields seen s fields := by
  simp [readFields, unknown]

/-- The fields of an object are read if those that are passed over have the form of values, and no field
is given again. -/
theorem readFields_ok_iff : kind.readFields seen s fields = .ok t ↔
    (∀ field ∈ fields, field.1 ∉ kind.fields → field.2.skip = .ok ()) ∧
      ((kind.known fields).map (·.1)).Nodup ∧ (∀ name ∈ (kind.known fields).map (·.1), name ∉ seen) ∧
      kind.setAll s (kind.known fields) = .ok t := by
  induction fields generalizing seen s with
  | nil => simp [readFields, known, setAll]
  | cons field fields ih =>
    obtain ⟨name, v⟩ := field
    by_cases isKnown : name ∈ kind.fields
    · rw [known_cons_of_mem isKnown, List.map_cons, List.nodup_cons]
      by_cases again : name ∈ seen
      · simp [readFields, isKnown, again]
      · simp only [readFields_known isKnown again, decoded_bind_iff, setAll_cons_iff, ih]
        constructor
        · rintro ⟨u, set, passed, once, fresh, all⟩
          refine ⟨?_, ⟨fun later => ?_, once⟩, ?_, u, set, all⟩
          · rintro field (_ | ⟨_, later⟩) unknown
            · exact absurd isKnown unknown
            · exact passed field later unknown
          · exact fresh name later List.mem_cons_self
          · rintro other (_ | ⟨_, later⟩)
            · exact again
            · exact fun old => fresh other later (List.mem_cons_of_mem _ old)
        · rintro ⟨passed, ⟨first, once⟩, fresh, u, set, all⟩
          refine ⟨u, set, fun field later => passed field (List.mem_cons_of_mem _ later), once,
            fun other later old => ?_, all⟩
          obtain rfl | old := List.mem_cons.mp old
          · exact first later
          · exact fresh other (List.mem_cons_of_mem _ later) old
    · rw [known_cons_of_not_mem isKnown, readFields_unknown isKnown]
      cases passed : v.skip with
      | error fault => simp [formed, Except.mapError, bind, Except.bind, isKnown, passed]
      | ok =>
        have rest : (formed (.ok ()) >>= fun _ => kind.readFields seen s fields) =
            kind.readFields seen s fields := rfl
        rw [rest, ih]
        simp [isKnown, passed]

theorem readItems_ok_iff {names : List String} {more : List Draft} :
    kind.readItems s names items = .ok (t, more) ↔
      kind.setAll s (names.zip items) = .ok t ∧ more = items.drop names.length := by
  induction items generalizing names s with
  | nil => cases names <;> simp [readItems, setAll, eq_comm]
  | cons v items ih =>
    cases names with
    | nil => simp [readItems, setAll, eq_comm]
    | cons name names =>
      simp only [readItems, decoded_bind_iff, List.zip_cons_cons, setAll_cons_iff, List.length_cons,
        List.drop_succ_cons, ih]
      constructor
      · rintro ⟨u, set, all, rest⟩
        exact ⟨⟨u, set, all⟩, rest⟩
      · rintro ⟨⟨u, set, all⟩, rest⟩
        exact ⟨u, set, all, rest⟩

theorem read_obj_ok_iff {fault : Option Fault} : kind.read start (.obj fields fault) = .ok t ↔
    kind.readFields [] start fields = .ok t ∧ fault = none := by
  rw [read]
  cases kind.readFields [] start fields with
  | error misfit => simp [bind, Except.bind]
  | ok s => cases fault <;> simp [bind, Except.bind, refuse, formed, Except.mapError, pure, Except.pure]

theorem read_arr_ok_iff {fault : Option Fault} : kind.read start (.arr items fault) = .ok t ↔
    kind.readItems start kind.fields items = .ok (t, []) ∧ fault = none := by
  rw [read]
  cases kind.readItems start kind.fields items with
  | error misfit => simp [bind, Except.bind]
  | ok result =>
    obtain ⟨s, more⟩ := result
    cases more <;> cases fault <;>
      simp [bind, Except.bind, pure, Except.pure, throw, throwThe, MonadExceptOf.throw]

theorem read_other {expected : String} (refused : kind.read start v = v.unexpected expected) :
    kind.read start v ≠ .ok t := by
  rw [refused, Draft.unexpected]
  cases v.describe <;> nofun

/-- A draft is read as a record where all values that it gives enter the record in turn. -/
theorem read_ok_iff : kind.read start v = .ok t ↔
    ∃ given, kind.Gives v given ∧ kind.setAll start given = .ok t := by
  constructor
  · intro read
    cases v with
    | obj fields fault =>
      obtain ⟨fields, rfl⟩ := read_obj_ok_iff.mp read
      obtain ⟨passed, once, -, all⟩ := readFields_ok_iff.mp fields
      exact ⟨_, .object passed once, all⟩
    | arr items fault =>
      obtain ⟨items, rfl⟩ := read_arr_ok_iff.mp read
      obtain ⟨all, short⟩ := readItems_ok_iff.mp items
      exact ⟨_, .array (List.drop_eq_nil_iff.mp short.symm), all⟩
    | _ => exact absurd read (read_other rfl)
  · rintro ⟨given, gives, all⟩
    cases gives with
    | object passed once =>
      exact read_obj_ok_iff.mpr ⟨readFields_ok_iff.mpr ⟨passed, once, by simp, all⟩, rfl⟩
    | array short =>
      have items := readItems_ok_iff.mpr ⟨all, (List.drop_eq_nil_iff.mpr short).symm⟩
      exact read_arr_ok_iff.mpr ⟨items, rfl⟩

theorem readText_ok_iff {text : String} : kind.readText start text = .ok t ↔
    ∃ v, draftOf text = (v, none) ∧ kind.read start v = .ok t := by
  rw [readText]
  rcases draftOf text with ⟨v, rest⟩
  cases read : kind.read start v with
  | error misfit => simp [bind, Except.bind, read]
  | ok s =>
    cases rest <;>
      simp [bind, Except.bind, read, refuse, formed, Except.mapError, pure, Except.pure]

theorem known_append_cons (isKnown : name ∈ kind.fields) (before after : List (String × Draft))
    (v : Draft) :
    kind.known (before ++ (name, v) :: after) = kind.known before ++ (name, v) :: kind.known after := by
  simp [known, isKnown]

theorem setAll_alike {v' : Draft}
    (alike : ∀ {s t}, kind.set s name v = .ok t ↔ kind.set s name v' = .ok t)
    (before after : List (String × Draft)) (all : kind.setAll s (before ++ (name, v) :: after) = .ok t) :
    kind.setAll s (before ++ (name, v') :: after) = .ok t := by
  induction before generalizing s with
  | nil =>
    obtain ⟨u, set, all⟩ := setAll_cons_iff.mp all
    exact setAll_cons_iff.mpr ⟨u, alike.mp set, all⟩
  | cons entry before ih =>
    obtain ⟨u, set, all⟩ := setAll_cons_iff.mp all
    exact setAll_cons_iff.mpr ⟨u, set, ih all⟩

/-- An object is read as it is with another value for a field, if that value enters the record alike. -/
theorem read_alike {v' : Draft} (isKnown : name ∈ kind.fields)
    (alike : ∀ {s t}, kind.set s name v = .ok t ↔ kind.set s name v' = .ok t)
    {before after : List (String × Draft)} {fault : Option Fault}
    (read : kind.read start (.obj (before ++ (name, v) :: after) fault) = .ok t) :
    kind.read start (.obj (before ++ (name, v') :: after) fault) = .ok t := by
  obtain ⟨fields, none⟩ := read_obj_ok_iff.mp read
  obtain ⟨passed, once, -, all⟩ := readFields_ok_iff.mp fields
  rw [known_append_cons isKnown] at once all
  refine read_obj_ok_iff.mpr ⟨readFields_ok_iff.mpr ?_, none⟩
  rw [known_append_cons isKnown]
  refine ⟨fun field listed unknown => ?_, by simpa using once, by simp, setAll_alike alike _ _ all⟩
  rcases List.mem_append.mp listed with first | _ | ⟨_, last⟩
  · exact passed field (List.mem_append_left _ first) unknown
  · exact absurd isKnown unknown
  · exact passed field (List.mem_append_right _ (List.mem_cons_of_mem _ last)) unknown

theorem Gives.isKnown (gives : kind.Gives v given) : ∀ entry ∈ given, entry.1 ∈ kind.fields := by
  intro entry listed
  cases gives with
  | object => simpa using (List.mem_filter.mp listed).2
  | array => exact (List.of_mem_zip listed).1

theorem zip_names_sublist (names : List String) (items : List Draft) :
    ((names.zip items).map (·.1)).Sublist names := by
  induction names generalizing items with
  | nil => simp
  | cons name names ih =>
    cases items with
    | nil => simp
    | cons v items => simpa using ih items

theorem Gives.once (gives : kind.Gives v given) (distinct : kind.fields.Nodup) :
    (given.map (·.1)).Nodup := by
  cases gives with
  | object passed once => exact once
  | array short => exact distinct.sublist (zip_names_sublist ..)

/-- What a part of a record is made of: the value that is given for it, or what it was before. -/
inductive Settled (Reads : Draft → α → Prop) (before : α) : Option Draft → α → Prop
  | given {v : Draft} {x : α} (reads : Reads v x) : Settled Reads before (some v) x
  | absent : Settled Reads before none before

/-- A part of a record that a field sets and no other does. What it is set to may be read over what it was
before. -/
structure Part (kind : RecordKind σ) (name : String) (part : σ → α) (Reads : α → Draft → α → Prop) :
    Prop where
  isKnown : name ∈ kind.fields
  set : ∀ {s t : σ} {v : Draft} {key : String}, key ∈ kind.fields → kind.set s key v = .ok t →
    (key = name → Reads (part s) v (part t)) ∧ (key ≠ name → part t = part s)

variable {part : σ → α} {Reads : α → Draft → α → Prop}

/-- What no value changes is as it was before. -/
theorem setAll_keeps {f : σ → α}
    (keeps : ∀ {name v s t}, (name, v) ∈ given → kind.set s name v = .ok t → f t = f s)
    (all : kind.setAll s given = .ok t) : f t = f s := by
  induction given generalizing s with
  | nil =>
    obtain rfl : s = t := Except.ok.inj all
    rfl
  | cons entry given ih =>
    obtain ⟨u, set, all⟩ := setAll_cons_iff.mp all
    rw [ih (fun later => keeps (List.mem_cons_of_mem _ later)) all]
    exact keeps List.mem_cons_self set

theorem Part.kept (isPart : kind.Part name part Reads)
    (isKnown : ∀ entry ∈ given, entry.1 ∈ kind.fields) (free : name ∉ given.map (·.1))
    (all : kind.setAll s given = .ok t) : part t = part s := by
  refine setAll_keeps (fun listed set => ?_) all
  refine (isPart.set (isKnown _ listed) set).2 ?_
  rintro rfl
  exact free (List.mem_map_of_mem listed)

/-- A part is what its field gives, wherever among the fields it stands. -/
theorem Part.settled (isPart : kind.Part name part Reads)
    (isKnown : ∀ entry ∈ given, entry.1 ∈ kind.fields) (once : (given.map (·.1)).Nodup)
    (all : kind.setAll s given = .ok t) :
    Settled (Reads (part s)) (part s) (given.lookup name) (part t) := by
  induction given generalizing s with
  | nil =>
    obtain rfl : s = t := Except.ok.inj all
    exact .absent
  | cons entry given ih =>
    obtain ⟨key, v⟩ := entry
    have isKnown' : ∀ entry ∈ given, entry.1 ∈ kind.fields := fun entry later =>
      isKnown entry (List.mem_cons_of_mem _ later)
    obtain ⟨fresh, once⟩ := List.nodup_cons.mp once
    obtain ⟨u, set, later⟩ := setAll_cons_iff.mp all
    rw [lookup_cons_if]
    split
    · next same =>
      subst same
      rw [isPart.kept isKnown' fresh later]
      exact .given ((isPart.set isPart.isKnown set).1 rfl)
    · next differs =>
      have before := (isPart.set (isKnown _ List.mem_cons_self) set).2 (Ne.symm differs)
      rw [← before]
      exact ih isKnown' once later

theorem Settled.reads {Reads : Draft → α → Prop} {before x : α}
    (settled : Settled Reads before (given.lookup name) x) (once : (given.map (·.1)).Nodup)
    (listed : (name, v) ∈ given) : Reads v x := by
  have found : given.lookup name = some v := (Named.mem_iff_get? once).mp listed
  rw [found] at settled
  cases settled
  assumption

theorem Settled.unique {Reads : Draft → α → Prop} {before x y : α} {value : Option Draft}
    (settled : Settled Reads before value x) (settled' : Settled Reads before value y)
    (one : ∀ {v x y}, Reads v x → Reads v y → x = y) : x = y := by
  cases settled with
  | given reads =>
    cases settled' with
    | given reads' => exact one reads reads'
  | absent =>
    cases settled'
    rfl

theorem Gives.unique {given' : List (String × Draft)} (gives : kind.Gives v given)
    (gives' : kind.Gives v given') : given = given' := by
  cases gives <;> cases gives' <;> rfl

/-- Where every value is one that its field takes, all of them enter. -/
theorem setAll_succeeds
    (taken : ∀ {name v}, (name, v) ∈ given → ∀ s, ∃ t, kind.set s name v = .ok t) (s : σ) :
    ∃ t, kind.setAll s given = .ok t := by
  induction given generalizing s with
  | nil => exact ⟨s, rfl⟩
  | cons entry given ih =>
    obtain ⟨u, set⟩ := taken List.mem_cons_self s
    obtain ⟨t, all⟩ := ih (fun later => taken (List.mem_cons_of_mem _ later)) u
    exact ⟨t, setAll_cons_iff.mpr ⟨u, set, all⟩⟩

end RecordKind

end RuleService.Json
