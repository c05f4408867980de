import Mathlib
import RuleService.Launch.CommandLine
import RuleService.Proofs.Numerals
import RuleService.Proofs.Records

namespace RuleService

open Json
open Json.Draft (ReadsText ReadsBoolean ReadsNatural)
open Json.RecordKind (Settled)

variable {cs : List Char} {text : String} {ds : List (Fin 10)}

/-- Digits are read as their number, if it is within the limit. -/
theorem natural_of_digits {limit k : Nat} :
    (if cs.isEmpty || !cs.all Double.isDigit then none
      else if Double.natOfDigits cs ≤ limit then some (Double.natOfDigits cs) else none) = some k ↔
    (∃ ds, ds ≠ [] ∧ cs = digitChars ds ∧ digitsValue ds = k) ∧ k ≤ limit := by
  constructor
  · intro read
    split at read
    · cases read
    · next accepted =>
      simp only [Bool.or_eq_true, Bool.not_eq_true', not_or, Bool.not_eq_false, List.all_eq_true]
        at accepted
      obtain ⟨ds, rfl⟩ := exists_digitChars accepted.2
      rw [natOfDigits_digitChars] at read
      split at read
      · next fits =>
        obtain rfl := Option.some.inj read
        exact ⟨⟨ds, by rintro rfl; exact accepted.1 rfl, rfl, rfl⟩, fits⟩
      · cases read
  · rintro ⟨⟨ds, given, rfl, rfl⟩, fits⟩
    have digits : (digitChars ds).all Double.isDigit = true :=
      List.all_eq_true.mpr fun c => isDigit_of_mem
    have given' : (digitChars ds).isEmpty = false := by simpa [digitChars] using given
    simp [given', digits, natOfDigits_digitChars, fits]

/-- The texts that are read as a natural number are those that write it, without a minus. -/
theorem naturalOf?_eq_some_iff {limit k : Nat} :
    Settings.naturalOf? limit text = some k ↔ WritesInteger k text.toList ∧ k ≤ limit := by
  unfold Settings.naturalOf?
  generalize text.toList = cs
  constructor
  · intro read
    split at read
    · obtain ⟨⟨ds, given, rfl, rfl⟩, fits⟩ := natural_of_digits.mp read
      exact ⟨.plus given, fits⟩
    · obtain ⟨⟨ds, given, rfl, rfl⟩, fits⟩ := natural_of_digits.mp read
      exact ⟨.bare given, fits⟩
  · rintro ⟨writes, fits⟩
    generalize whole : (k : Int) = i at writes
    cases writes with
    | bare given =>
      obtain rfl := Int.ofNat_inj.mp whole
      split
      · next plus => exact absurd plus (digitChars_ne_cons (by decide))
      · exact natural_of_digits.mpr ⟨⟨_, given, rfl, rfl⟩, fits⟩
    | plus given =>
      obtain rfl := Int.ofNat_inj.mp whole
      exact natural_of_digits.mpr ⟨⟨_, given, rfl, rfl⟩, fits⟩
    | minus negative => omega

namespace Settings

/-- What is read as a port: a number, or a text that holds one. -/
inductive ReadsPort : Draft → Nat → Prop
  | number {n : Nat} (fits : n ≤ 65535) : ReadsPort (.int n) n
  | text {s : String} {n : Nat} (holds : HoldsInteger s n) (fits : n ≤ 65535) : ReadsPort (.str s) n

/-- What a list or an object stands for is no number and no text. -/
theorem portOf_compound {v : Draft} {port : Nat} (number : ∀ n, v ≠ .int n) (text : ∀ s, v ≠ .str s) :
    portOf v ≠ .ok port := by
  cases v with
  | int n => exact absurd rfl (number n)
  | str s => exact absurd rfl (text s)
  | arr items fault =>
    rw [portOf, Draft.any, Draft.toJson]
    cases toJsonItems items with
    | error fault => nofun
    | ok items => cases fault <;> nofun
  | obj fields fault =>
    rw [portOf, Draft.any, Draft.toJson]
    cases toJsonFields fields with
    | error fault => nofun
    | ok fields => cases fault <;> nofun
  | _ =>
    rw [portOf, Draft.any, Draft.toJson]
    nofun

theorem portOf_int {n : Int} {port : Nat} :
    portOf (.int n) = .ok port ↔ n = port ∧ port ≤ greatestPort := by
  have read : portOf (.int n) =
      if 0 ≤ n ∧ n ≤ greatestPort then .ok n.toNat
      else .error (.other "data did not match any variant of untagged enum Port") := rfl
  rw [read]
  constructor
  · intro done
    split at done
    · next fits =>
      obtain ⟨k, rfl⟩ := Int.eq_ofNat_of_zero_le fits.1
      obtain rfl := Except.ok.inj done
      exact ⟨rfl, Int.ofNat_le.mp fits.2⟩
    · cases done
  · rintro ⟨rfl, fits⟩
    rw [if_pos ⟨by omega, Int.ofNat_le.mpr fits⟩, Int.toNat_natCast]

theorem portOf_str {s : String} {port : Nat} :
    portOf (.str s) = .ok port ↔ HoldsInteger s port ∧ port ≤ greatestPort := by
  rw [holdsInteger_iff, ← naturalOf?_eq_some_iff]
  simp only [portOf, Draft.any, Draft.toJson, formed, Except.mapError, bind, Except.bind]
  cases naturalOf? greatestPort (Text.trim s) with
  | none =>
    constructor
    · intro done
      cases done
    · intro found
      cases found
  | some n =>
    constructor
    · intro done
      exact congrArg some (Except.ok.inj done)
    · intro found
      cases found
      rfl

theorem portOf_ok_iff {v : Draft} {port : Nat} : portOf v = .ok port ↔ ReadsPort v port := by
  cases v with
  | int n =>
    rw [portOf_int]
    constructor
    · rintro ⟨rfl, fits⟩
      exact .number fits
    · rintro ⟨fits⟩
      exact ⟨rfl, fits⟩
  | str s =>
    rw [portOf_str]
    constructor
    · rintro ⟨holds, fits⟩
      exact .text holds fits
    · rintro (_ | ⟨holds, fits⟩)
      exact ⟨holds, fits⟩
  | _ =>
    constructor
    · intro done
      exact absurd done (portOf_compound (by simp) (by simp))
    · intro reads
      cases reads

theorem ReadsPort.unique {v : Draft} {x y : Nat} (reads : ReadsPort v x) (reads' : ReadsPort v y) :
    x = y := by
  cases reads with
  | number =>
    cases reads'
    rfl
  | text holds =>
    cases reads' with
    | text holds' => exact Int.ofNat_inj.mp (holds.unique holds')

section

variable {v : Draft} {s t : Settings} {name : String}

/-- What is read as the script files: an object of texts. They stand in the order of their names, and of
several for one name the last one counts. -/
inductive ReadsImports : Draft → Texts → Prop
  | intro {given : List (String × String)} {texts : Texts} (ordered : texts.Pairwise (·.1 < ·.1))
      (last : ∀ name path, (name, path) ∈ texts ↔ given.reverse.lookup name = some path) :
      ReadsImports (.obj (given.map fun entry => (entry.1, .str entry.2)) none) texts

/-- Texts in the order of their names. -/
theorem mem_inOrder_ofList (given : List (String × String)) (name path : String) :
    (name, path) ∈ inOrder (Named.ofList given) ↔ given.reverse.lookup name = some path := by
  rw [inOrder, (List.mergeSort_perm ..).mem_iff, Named.mem_iff_get? (Named.nodup_keys_ofList given),
    Named.get?_ofList]

theorem ordered_inOrder_ofList (given : List (String × String)) :
    (inOrder (Named.ofList given)).Pairwise (·.1 < ·.1) := by
  have weak : (inOrder (Named.ofList given)).Pairwise fun a b => decide (a.1 ≤ b.1) = true := by
    refine List.pairwise_mergeSort (fun a b c => ?_) (fun a b => ?_) _
    · simpa using String.le_trans
    · simpa using String.le_total a.1 b.1
  have once : ((inOrder (Named.ofList given)).map (·.1)).Nodup :=
    ((List.mergeSort_perm ..).map _).nodup_iff.mpr (Named.nodup_keys_ofList given)
  have distinct : (inOrder (Named.ofList given)).Pairwise (·.1 ≠ ·.1) := List.pairwise_map.mp once
  refine (weak.and distinct).imp fun ⟨before, differs⟩ => ?_
  exact String.not_le.mp fun after => differs (String.le_antisymm (of_decide_eq_true before) after)

theorem imports_ok_iff {texts : Texts} :
    (∃ x, Draft.map (Draft.text "path string") v = .ok x ∧ texts = inOrder (Named.ofList x)) ↔
      ReadsImports v texts := by
  constructor
  · rintro ⟨x, read, rfl⟩
    rw [Draft.map_ok_iff.mp read]
    exact .intro (ordered_inOrder_ofList x) (mem_inOrder_ofList x)
  · rintro @⟨given, texts, ordered, last⟩
    refine ⟨given, Draft.map_ok_iff.mpr rfl, ?_⟩
    have : Std.Antisymm fun a b : String × String => a.1 < b.1 :=
      ⟨fun _ _ before after => absurd after (String.lt_asymm before)⟩
    have : Std.Irrefl fun a b : String × String => a.1 < b.1 := ⟨fun _ => String.lt_irrefl _⟩
    refine ordered.eq_of_mem_iff (ordered_inOrder_ofList given) fun entry => ?_
    rw [last entry.1 entry.2, mem_inOrder_ofList]

theorem ReadsImports.unique {x y : Texts} (reads : ReadsImports v x) (reads' : ReadsImports v y) :
    x = y := by
  obtain ⟨texts, read, rfl⟩ := imports_ok_iff.mpr reads
  obtain ⟨texts', read', rfl⟩ := imports_ok_iff.mpr reads'
  rw [Except.ok.inj (read.symm.trans read')]

/-- The endpoint and the time for the object storage, as values given for its fields make them of those
before. -/
structure MakesStorage (before : String × Nat) (given : List (String × Draft)) (after : String × Nat) :
    Prop where
  endpoint : Settled ReadsText before.1 (given.lookup "endpoint") after.1
  timeoutMs : Settled (ReadsNatural greatestTimeout) before.2 (given.lookup "timeoutMs") after.2

/-- What is read for the object storage, over what was set before. -/
def ReadsStorage (before : String × Nat) (v : Draft) (after : String × Nat) : Prop :=
  ∃ given, storageKind.Gives v given ∧ MakesStorage before given after

/-- A value for a field of the object storage enters. -/
inductive SetsStorage (s : Settings) : String → Draft → Settings → Prop
  | endpoint {v : Draft} {x : String} (reads : ReadsText v x) :
      SetsStorage s "endpoint" v { s with endpoint := x }
  | timeoutMs {v : Draft} {n : Nat} (reads : ReadsNatural greatestTimeout v n) :
      SetsStorage s "timeoutMs" v { s with timeoutMs := n }

theorem storage_name (isKnown : name ∈ storageKind.fields) : name = "endpoint" ∨ name = "timeoutMs" := by
  simpa [storageKind] using isKnown

theorem storage_set_iff (isKnown : name ∈ storageKind.fields) :
    storageKind.set s name v = .ok t ↔ SetsStorage s name v t := by
  constructor
  · intro set
    rcases storage_name isKnown with rfl | rfl
    · obtain ⟨x, read, rfl⟩ := decoded_map_iff.mp set
      exact .endpoint (Draft.text_ok_iff.mp read)
    · obtain ⟨n, read, rfl⟩ := decoded_map_iff.mp set
      exact .timeoutMs (Draft.natural_ok_iff.mp read)
  · intro sets
    cases sets with
    | endpoint reads => exact decoded_map_iff.mpr ⟨_, Draft.text_ok_iff.mpr reads, rfl⟩
    | timeoutMs reads => exact decoded_map_iff.mpr ⟨_, Draft.natural_ok_iff.mpr reads, rfl⟩

theorem endpoint_part : storageKind.Part "endpoint" (·.endpoint) fun _ => ReadsText where
  isKnown := by decide
  set isKnown set := by cases (storage_set_iff isKnown).mp set <;> simp_all

theorem timeoutMs_part :
    storageKind.Part "timeoutMs" (·.timeoutMs) fun _ => ReadsNatural greatestTimeout where
  isKnown := by decide
  set isKnown set := by cases (storage_set_iff isKnown).mp set <;> simp_all

variable {given : List (String × Draft)}

/-- Whatever is set for the object storage, the other settings stay. -/
theorem storage_keeps (isKnown : ∀ entry ∈ given, entry.1 ∈ storageKind.fields)
    (all : storageKind.setAll s given = .ok t) :
    t = { s with endpoint := t.endpoint, timeoutMs := t.timeoutMs } := by
  let others (s : Settings) : Settings := { s with endpoint := "", timeoutMs := 0 }
  have same : others t = others s := by
    refine RecordKind.setAll_keeps (fun listed set => ?_) all
    cases (storage_set_iff (isKnown _ listed)).mp set <;> rfl
  simp only [others, mk.injEq, and_true] at same
  cases t
  simp_all

theorem storage_taken {before after : String × Nat} (once : (given.map (·.1)).Nodup)
    (isKnown : ∀ entry ∈ given, entry.1 ∈ storageKind.fields) (makes : MakesStorage before given after) :
    ∀ {name v}, (name, v) ∈ given → ∀ s, ∃ t, storageKind.set s name v = .ok t := by
  intro name v listed s
  rcases storage_name (isKnown _ listed) with rfl | rfl
  · exact ⟨_, (storage_set_iff (isKnown _ listed)).mpr (.endpoint (makes.endpoint.reads once listed))⟩
  · exact ⟨_, (storage_set_iff (isKnown _ listed)).mpr (.timeoutMs (makes.timeoutMs.reads once listed))⟩

theorem MakesStorage.unique {before after after' : String × Nat} (makes : MakesStorage before given after)
    (makes' : MakesStorage before given after') : after = after' :=
  Prod.ext (makes.endpoint.unique makes'.endpoint ReadsText.unique)
    (makes.timeoutMs.unique makes'.timeoutMs ReadsNatural.unique)

theorem storage_setAll {s t : Settings} (once : (given.map (·.1)).Nodup)
    (isKnown : ∀ entry ∈ given, entry.1 ∈ storageKind.fields) (all : storageKind.setAll s given = .ok t) :
    MakesStorage (s.endpoint, s.timeoutMs) given (t.endpoint, t.timeoutMs) :=
  ⟨endpoint_part.settled isKnown once all, timeoutMs_part.settled isKnown once all⟩

/-- A draft is read for the object storage as what its values make of the settings before. -/
theorem storage_read_iff : storageKind.read s v = .ok t ↔
    ∃ after, ReadsStorage (s.endpoint, s.timeoutMs) v after ∧
      t = { s with endpoint := after.1, timeoutMs := after.2 } := by
  rw [RecordKind.read_ok_iff]
  constructor
  · rintro ⟨given, gives, all⟩
    exact ⟨_, ⟨given, gives, storage_setAll (gives.once (by decide)) gives.isKnown all⟩,
      storage_keeps gives.isKnown all⟩
  · rintro ⟨after, ⟨given, gives, makes⟩, rfl⟩
    have once := gives.once (by decide)
    obtain ⟨t, all⟩ := RecordKind.setAll_succeeds (storage_taken once gives.isKnown makes) s
    obtain rfl := makes.unique (storage_setAll once gives.isKnown all)
    rw [storage_keeps gives.isKnown all] at all
    exact ⟨given, gives, all⟩

theorem ReadsStorage.unique {before x y : String × Nat} (reads : ReadsStorage before v x)
    (reads' : ReadsStorage before v y) : x = y := by
  obtain ⟨given, gives, makes⟩ := reads
  obtain ⟨given', gives', makes'⟩ := reads'
  obtain rfl := gives.unique gives'
  exact makes.unique makes'

/-- What is read for the object storage over some settings is read over any. -/
theorem ReadsStorage.anew {before after : String × Nat} (reads : ReadsStorage before v after)
    (s : Settings) : ∃ t, storageKind.read s v = .ok t := by
  obtain ⟨given, gives, makes⟩ := reads
  have once := gives.once (by decide)
  obtain ⟨t, all⟩ := RecordKind.setAll_succeeds (storage_taken once gives.isKnown makes) s
  exact ⟨t, RecordKind.read_ok_iff.mpr ⟨given, gives, all⟩⟩

/-- A value for a field of the settings enters. -/
inductive Sets (s : Settings) : String → Draft → Settings → Prop
  | port {v : Draft} {n : Nat} (reads : ReadsPort v n) : Sets s "port" v { s with port := n }
  | serviceDescriptor {v : Draft} {x : String} (reads : ReadsText v x) :
      Sets s "serviceDescriptor" v { s with serviceDescriptor := x }
  | accessLog {v : Draft} {b : Bool} (reads : ReadsBoolean v b) :
      Sets s "accessLog" v { s with accessLog := b }
  | noDefaultIndex {v : Draft} {b : Bool} (reads : ReadsBoolean v b) :
      Sets s "noDefaultIndex" v { s with noDefaultIndex := b }
  | logLevel {v : Draft} {x : String} (reads : ReadsText v x) :
      Sets s "logLevel" v { s with logLevel := x }
  | imports {v : Draft} {texts : Texts} (reads : ReadsImports v texts) :
      Sets s "imports" v { s with imports := texts }
  | objectStorage {v : Draft} {after : String × Nat}
      (reads : ReadsStorage (s.endpoint, s.timeoutMs) v after) :
      Sets s "objectStorage" v { s with endpoint := after.1, timeoutMs := after.2 }

theorem setting_name (isKnown : name ∈ kind.fields) : name = "port" ∨ name = "serviceDescriptor" ∨
    name = "accessLog" ∨ name = "noDefaultIndex" ∨ name = "logLevel" ∨ name = "imports" ∨
    name = "objectStorage" := by
  simpa [kind] using isKnown

theorem set_iff (isKnown : name ∈ kind.fields) : kind.set s name v = .ok t ↔ Sets s name v t := by
  constructor
  · intro set
    rcases setting_name isKnown with rfl | rfl | rfl | rfl | rfl | rfl | rfl
    · obtain ⟨n, read, rfl⟩ := decoded_map_iff.mp set
      exact .port (portOf_ok_iff.mp read)
    · obtain ⟨x, read, rfl⟩ := decoded_map_iff.mp set
      exact .serviceDescriptor (Draft.text_ok_iff.mp read)
    · obtain ⟨b, read, rfl⟩ := decoded_map_iff.mp set
      exact .accessLog (Draft.boolean_ok_iff.mp read)
    · obtain ⟨b, read, rfl⟩ := decoded_map_iff.mp set
      exact .noDefaultIndex (Draft.boolean_ok_iff.mp read)
    · obtain ⟨x, read, rfl⟩ := decoded_map_iff.mp set
      exact .logLevel (Draft.text_ok_iff.mp read)
    · obtain ⟨x, read, rfl⟩ := decoded_map_iff.mp set
      exact .imports (imports_ok_iff.mp ⟨x, read, rfl⟩)
    · obtain ⟨after, reads, rfl⟩ := storage_read_iff.mp set
      exact .objectStorage reads
  · intro sets
    cases sets with
    | port reads => exact decoded_map_iff.mpr ⟨_, portOf_ok_iff.mpr reads, rfl⟩
    | serviceDescriptor reads => exact decoded_map_iff.mpr ⟨_, Draft.text_ok_iff.mpr reads, rfl⟩
    | accessLog reads => exact decoded_map_iff.mpr ⟨_, Draft.boolean_ok_iff.mpr reads, rfl⟩
    | noDefaultIndex reads => exact decoded_map_iff.mpr ⟨_, Draft.boolean_ok_iff.mpr reads, rfl⟩
    | logLevel reads => exact decoded_map_iff.mpr ⟨_, Draft.text_ok_iff.mpr reads, rfl⟩
    | imports reads =>
      obtain ⟨x, read, rfl⟩ := imports_ok_iff.mpr reads
      exact decoded_map_iff.mpr ⟨x, read, rfl⟩
    | objectStorage reads => exact storage_read_iff.mpr ⟨_, reads, rfl⟩

/-- The settings that the values given for fields make: for each setting the value given for it, or the
stock one where none is. -/
structure Makes (given : List (String × Draft)) (s : Settings) : Prop where
  port : Settled ReadsPort 8080 (given.lookup "port") s.port
  serviceDescriptor : Settled ReadsText "./data/service.json"
    (given.lookup "serviceDescriptor") s.serviceDescriptor
  accessLog : Settled ReadsBoolean false (given.lookup "accessLog") s.accessLog
  noDefaultIndex : Settled ReadsBoolean false (given.lookup "noDefaultIndex") s.noDefaultIndex
  logLevel : Settled ReadsText "info" (given.lookup "logLevel") s.logLevel
  imports : Settled ReadsImports [] (given.lookup "imports") s.imports
  objectStorage : Settled (ReadsStorage ("https://s3.amazonaws.com", 10000))
    ("https://s3.amazonaws.com", 10000) (given.lookup "objectStorage") (s.endpoint, s.timeoutMs)

theorem isPart {α : Type} {name : String} {part : Settings → α} {Reads : α → Draft → α → Prop}
    (isKnown : name ∈ kind.fields)
    (sets : ∀ {s t key v}, Sets s key v t →
      (key = name → Reads (part s) v (part t)) ∧ (key ≠ name → part t = part s)) :
    kind.Part name part Reads where
  isKnown := isKnown
  set isKnown set := sets ((set_iff isKnown).mp set)

theorem port_part : kind.Part "port" (·.port) fun _ => ReadsPort :=
  isPart (by decide) fun sets => by cases sets <;> simp_all

theorem serviceDescriptor_part :
    kind.Part "serviceDescriptor" (·.serviceDescriptor) fun _ => ReadsText :=
  isPart (by decide) fun sets => by cases sets <;> simp_all

theorem accessLog_part : kind.Part "accessLog" (·.accessLog) fun _ => ReadsBoolean :=
  isPart (by decide) fun sets => by cases sets <;> simp_all

theorem noDefaultIndex_part : kind.Part "noDefaultIndex" (·.noDefaultIndex) fun _ => ReadsBoolean :=
  isPart (by decide) fun sets => by cases sets <;> simp_all

theorem logLevel_part : kind.Part "logLevel" (·.logLevel) fun _ => ReadsText :=
  isPart (by decide) fun sets => by cases sets <;> simp_all

theorem imports_part : kind.Part "imports" (·.imports) fun _ => ReadsImports :=
  isPart (by decide) fun sets => by cases sets <;> simp_all

theorem objectStorage_part :
    kind.Part "objectStorage" (fun s => (s.endpoint, s.timeoutMs)) ReadsStorage :=
  isPart (by decide) fun sets => by cases sets <;> simp_all

theorem makes_of_setAll (once : (given.map (·.1)).Nodup)
    (isKnown : ∀ entry ∈ given, entry.1 ∈ kind.fields) (all : kind.setAll {} given = .ok t) :
    Makes given t where
  port := port_part.settled isKnown once all
  serviceDescriptor := serviceDescriptor_part.settled isKnown once all
  accessLog := accessLog_part.settled isKnown once all
  noDefaultIndex := noDefaultIndex_part.settled isKnown once all
  logLevel := logLevel_part.settled isKnown once all
  imports := imports_part.settled isKnown once all
  objectStorage := objectStorage_part.settled isKnown once all

theorem Makes.unique (makes : Makes given s) (makes' : Makes given t) : s = t := by
  have port := makes.port.unique makes'.port ReadsPort.unique
  have serviceDescriptor := makes.serviceDescriptor.unique makes'.serviceDescriptor ReadsText.unique
  have accessLog := makes.accessLog.unique makes'.accessLog ReadsBoolean.unique
  have noDefaultIndex := makes.noDefaultIndex.unique makes'.noDefaultIndex ReadsBoolean.unique
  have logLevel := makes.logLevel.unique makes'.logLevel ReadsText.unique
  have imports := makes.imports.unique makes'.imports ReadsImports.unique
  have storage := makes.objectStorage.unique makes'.objectStorage ReadsStorage.unique
  cases s
  cases t
  simp_all

theorem Makes.taken (makes : Makes given t) (once : (given.map (·.1)).Nodup)
    (isKnown : ∀ entry ∈ given, entry.1 ∈ kind.fields) :
    ∀ {name v}, (name, v) ∈ given → ∀ s, ∃ t, kind.set s name v = .ok t := by
  intro name v listed s
  have enters {u : Settings} (sets : Sets s name v u) : ∃ t, kind.set s name v = .ok t :=
    ⟨u, (set_iff (isKnown _ listed)).mpr sets⟩
  rcases setting_name (isKnown _ listed) with rfl | rfl | rfl | rfl | rfl | rfl | rfl
  · exact enters (.port (makes.port.reads once listed))
  · exact enters (.serviceDescriptor (makes.serviceDescriptor.reads once listed))
  · exact enters (.accessLog (makes.accessLog.reads once listed))
  · exact enters (.noDefaultIndex (makes.noDefaultIndex.reads once listed))
  · exact enters (.logLevel (makes.logLevel.reads once listed))
  · exact enters (.imports (makes.imports.reads once listed))
  · exact (makes.objectStorage.reads once listed).anew s

/-- A draft is read as the settings that its values make of the stock ones. -/
theorem read_iff : kind.read {} v = .ok s ↔ ∃ given, kind.Gives v given ∧ Makes given s := by
  rw [RecordKind.read_ok_iff]
  constructor
  · rintro ⟨given, gives, all⟩
    exact ⟨given, gives, makes_of_setAll (gives.once (by decide)) gives.isKnown all⟩
  · rintro ⟨given, gives, makes⟩
    have once := gives.once (by decide)
    obtain ⟨t, all⟩ := RecordKind.setAll_succeeds (makes.taken once gives.isKnown) {}
    obtain rfl := makes.unique (makes_of_setAll once gives.isKnown all)
    exact ⟨given, gives, all⟩

end

/-- The settings that a text gives: it is a document, whose values make them of the stock ones. -/
def GivenBy (text : String) (s : Settings) : Prop :=
  ∃ v given, draftOf text = (v, none) ∧ kind.Gives v given ∧ Makes given s

variable {text path : String} {files : Files} {s : Settings}

theorem ofText_iff : ofText text = .ok s ↔ GivenBy text s := by
  rw [ofText, RecordKind.readText_ok_iff]
  constructor
  · rintro ⟨v, form, read⟩
    obtain ⟨given, gives, makes⟩ := read_iff.mp read
    exact ⟨v, given, form, gives, makes⟩
  · rintro ⟨v, given, form, gives, makes⟩
    exact ⟨v, form, read_iff.mpr ⟨given, gives, makes⟩⟩

theorem isFile_of_readText (read : files.readText path = .ok text) : files.isFile path = true := by
  rw [Files.readText, Files.readBytes] at read
  rw [Files.isFile]
  cases found : files.find path with
  | error fault =>
    rw [found] at read
    cases read
  | ok entry =>
    rw [found] at read
    cases entry with
    | file bytes => rfl
    | refused why => cases read
    | directory => cases read

/-- Settings come from a file whose text gives them. -/
theorem load_iff : load files path = .ok (some s) ↔
    ∃ text, files.readText path = .ok text ∧ GivenBy text s := by
  cases read : files.readText path with
  | error fault =>
    unfold load
    cases files.isFile path <;> simp [read, bind, Except.bind, Except.mapError]
  | ok text =>
    have unfolded : load files path = ((ofText text).mapError (.misfit path)).map some := by
      rw [load, isFile_of_readText read, read]
      change ((ofText text).mapError (SettingsFault.misfit path) >>= fun s => pure (some s)) = _
      cases ofText text <;> rfl
    rw [unfolded]
    simp only [Except.ok.injEq, ← ofText_iff, exists_eq_left']
    cases ofText text <;> simp [Except.mapError, Except.map]

theorem loadOrStock_of_givenBy (read : files.readText path = .ok text) (given : GivenBy text s) :
    loadOrStock files path = (s, none) := by
  rw [loadOrStock, load_iff.mpr ⟨text, read, given⟩]

theorem loadOrStock_of_missing (missing : files.isFile path = false) :
    loadOrStock files path = ({}, some (path ++ " not found; using defaults")) := by
  have loaded : load files path = .ok none := by rw [load, missing]; rfl
  rw [loadOrStock, loaded]

theorem loadOrStock_of_unreadable {why : ReadFault} (there : files.isFile path = true)
    (unreadable : files.readText path = .error why) :
    loadOrStock files path =
      ({}, some ("failed to read " ++ path ++ ": " ++ why.message ++ "; using defaults")) := by
  have loaded : load files path = .error (.unreadable path why) := by
    rw [load, there, unreadable]
    rfl
  rw [loadOrStock, loaded]
  rfl

theorem loadOrStock_of_refused (refused : ∀ text s, files.readText path = .ok text → ¬ GivenBy text s) :
    ∃ notice, loadOrStock files path = ({}, some notice) := by
  unfold loadOrStock
  split
  · next s loaded =>
    obtain ⟨text, read, given⟩ := load_iff.mp loaded
    exact absurd given (refused text s read)
  · exact ⟨_, rfl⟩
  · exact ⟨_, rfl⟩

theorem readsPort_int {n : Int} {port : Nat} :
    ReadsPort (.int n) port ↔ 0 ≤ n ∧ n ≤ 65535 ∧ (port : Int) = n := by
  constructor
  · rintro ⟨fits⟩
    omega
  · rintro ⟨-, fits, rfl⟩
    exact .number (by omega)

/-- A text that holds a number is read as the number is. -/
theorem readsPort_of_holds {n : Int} (holds : HoldsInteger text n) {port : Nat} :
    ReadsPort (.int n) port ↔ ReadsPort (.str text) port := by
  rw [readsPort_int]
  constructor
  · rintro ⟨-, fits, rfl⟩
    exact .text holds (by omega)
  · rintro (_ | ⟨holds', fits⟩)
    have same := holds.unique holds'
    omega

theorem set_port_iff {v : Draft} {s t : Settings} :
    kind.set s "port" v = .ok t ↔ ∃ port, ReadsPort v port ∧ t = { s with port } := by
  have set : kind.set s "port" v = (fun x => { s with port := x }) <$> portOf v := rfl
  rw [set, decoded_map_iff]
  simp only [portOf_ok_iff]

end Settings

/-- What the flags make of settings. -/
structure Flags.Override (flags : Flags) (s t : Settings) : Prop where
  port : t.port = s.port ∧ flags.port = none ∨ flags.port = some t.port
  serviceDescriptor : t.serviceDescriptor = s.serviceDescriptor ∧ flags.service = none ∨
    flags.service = some t.serviceDescriptor
  accessLog : t.accessLog = true ↔ flags.accessLog = true ∨ s.accessLog = true
  others : t.noDefaultIndex = s.noDefaultIndex ∧ t.logLevel = s.logLevel ∧ t.imports = s.imports ∧
    t.endpoint = s.endpoint ∧ t.timeoutMs = s.timeoutMs

theorem Flags.override_resolve (flags : Flags) (files : Files) :
    flags.Override (Settings.loadOrStock files flags.config).1 (flags.resolve files).1 ∧
      (flags.resolve files).2 = (Settings.loadOrStock files flags.config).2 := by
  rw [resolve]
  rcases Settings.loadOrStock files flags.config with ⟨s, notice⟩
  refine ⟨⟨?_, ?_, ?_, ?_⟩, rfl⟩
  · cases given : flags.port <;> simp
  · cases given : flags.service <;> simp
  · simp
  · exact ⟨rfl, rfl, rfl, rfl, rfl⟩

open Settings in
/-- How the settings of a server come about. Of a file that is accepted they are what it gives, and the
stock ones for the rest; of any other nothing is taken. The flags come last. A port is accepted as a number
just as it is in a text, and any other value there makes the file unacceptable. -/
structure Flags.Precedence (flags : Flags) (files : Files) : Prop where
  accepted : ∀ text s, files.readText flags.config = .ok text → GivenBy text s →
    (flags.resolve files).2 = none ∧ flags.Override s (flags.resolve files).1
  refused : (∀ text s, files.readText flags.config = .ok text → ¬ GivenBy text s) →
    (∃ notice, (flags.resolve files).2 = some notice) ∧ flags.Override {} (flags.resolve files).1
  /-- No regular file is there. -/
  missing : files.isFile flags.config = false →
    (flags.resolve files).2 = some (flags.config ++ " not found; using defaults") ∧
      flags.Override {} (flags.resolve files).1
  /-- A file is there and cannot be read as a text. -/
  unreadable : ∀ why, files.isFile flags.config = true → files.readText flags.config = .error why →
    (flags.resolve files).2 =
        some ("failed to read " ++ flags.config ++ ": " ++ why.message ++ "; using defaults") ∧
      flags.Override {} (flags.resolve files).1
  portNumber : ∀ n port, ReadsPort (.int n) port ↔ 0 ≤ n ∧ n ≤ 65535 ∧ (port : Int) = n
  portText : ∀ text n, HoldsInteger text n → ∀ port, ReadsPort (.str text) port ↔ ReadsPort (.int n) port
  /-- A number and a text that holds it give the same settings wherever they stand. -/
  portAlike : ∀ text n, HoldsInteger text n → ∀ before after fault s,
    kind.read {} (.obj (before ++ ("port", .str text) :: after) fault) = .ok s ↔
      kind.read {} (.obj (before ++ ("port", .int n) :: after) fault) = .ok s
  otherPort : ∀ text v given port, draftOf text = (v, none) → kind.Gives v given →
    given.lookup "port" = some port → (∀ n, ¬ ReadsPort port n) → ∀ s, ¬ GivenBy text s

namespace Settings

theorem read_port_alike {n : Int} (holds : HoldsInteger text n) (before after : List (String × Draft))
    (fault : Option Fault) : kind.read {} (.obj (before ++ ("port", .str text) :: after) fault) = .ok s ↔
      kind.read {} (.obj (before ++ ("port", .int n) :: after) fault) = .ok s := by
  have alike {s t : Settings} :
      kind.set s "port" (.str text) = .ok t ↔ kind.set s "port" (.int n) = .ok t := by
    simp only [set_port_iff, readsPort_of_holds holds]
  exact ⟨RecordKind.read_alike (by decide) alike, RecordKind.read_alike (by decide) alike.symm⟩

/-- A value for the port that is read as none keeps the text from giving any settings. -/
theorem not_givenBy_of_port {v port : Draft} {given : List (String × Draft)}
    (form : draftOf text = (v, none)) (gives : kind.Gives v given)
    (there : given.lookup "port" = some port) (unread : ∀ n, ¬ ReadsPort port n) :
    ¬ GivenBy text s := by
  rintro ⟨v', given', form', gives', makes⟩
  obtain rfl : v = v' := congrArg Prod.fst (form.symm.trans form')
  obtain rfl := gives.unique gives'
  have settled := makes.port
  rw [there] at settled
  cases settled with
  | given reads => exact unread _ reads

end Settings

/-- The settings a server starts with: the file counts as a whole or not at all, and the flags come last. -/
theorem Flags.resolve_precedence (flags : Flags) (files : Files) : flags.Precedence files := by
  obtain ⟨overrides, notice⟩ := flags.override_resolve files
  constructor
  case accepted =>
    intro text s read given
    rw [Settings.loadOrStock_of_givenBy read given] at overrides notice
    exact ⟨notice, overrides⟩
  case refused =>
    intro refused
    obtain ⟨why, stock⟩ := Settings.loadOrStock_of_refused refused
    rw [stock] at overrides notice
    exact ⟨⟨why, notice⟩, overrides⟩
  case missing =>
    intro missing
    rw [Settings.loadOrStock_of_missing missing] at overrides notice
    exact ⟨notice, overrides⟩
  case unreadable =>
    intro why there unreadable
    rw [Settings.loadOrStock_of_unreadable there unreadable] at overrides notice
    exact ⟨notice, overrides⟩
  case portNumber => exact fun n port => Settings.readsPort_int
  case portText => exact fun text n holds port => (Settings.readsPort_of_holds holds).symm
  case portAlike =>
    exact fun text n holds before after fault s => Settings.read_port_alike holds before after fault
  case otherPort =>
    exact fun text v given port form gives there unread s =>
      Settings.not_givenBy_of_port form gives there unread

/-- Files with a configuration file of this text. -/
def configured (text : String) : Files := { entries := [(["config.json"], .file text.toUTF8)] }

theorem readText_configured (text : String) : (configured text).readText "./config.json" = .ok text := by
  have bytes : (configured text).readBytes "./config.json" = .ok text.toUTF8 := by cbv
  have whole : String.fromUTF8? text.toUTF8 = some text := dif_pos text.isValidUTF8
  rw [Files.readText, bytes]
  simp only [bind, Except.bind, whole]
  rfl

/-- Files with a configuration file that may not be opened. -/
def locked : Files := { entries := [(["config.json"], .refused .permissionDenied)] }

/-- A port in a text, and a part of the settings for the object storage. -/
def acceptable : String :=
  "\x7b\"port\": \" +8081\\t\", \"logLevel\": \"debug\", " ++
    "\"objectStorage\": \x7b\"timeoutMs\": 500\x7d\x7d"

/-- A port that is none, beside a good value. -/
def unacceptable : String := "\x7b\"port\": 65536, \"logLevel\": \"debug\"\x7d"

theorem acceptable_gives :
    Settings.GivenBy acceptable { port := 8081, logLevel := "debug", timeoutMs := 500 } :=
  Settings.ofText_iff.mp (by decide +kernel)

theorem unacceptable_gives_nothing {text : String} {s : Settings}
    (read : (configured unacceptable).readText "./config.json" = .ok text) :
    ¬ Settings.GivenBy text s := by
  obtain rfl := Except.ok.inj ((readText_configured unacceptable).symm.trans read)
  intro given
  have refused : (Settings.ofText unacceptable).isOk = false := by decide +kernel
  rw [Settings.ofText_iff.mpr given] at refused
  cases refused

/-- The flags replace what they name, and one bad value makes all of a file count for nothing; so does a
file that may not be opened. -/
theorem Flags.resolve_precedence_overridden :
    let flags : Flags := { service := some "./s.json" }
    (flags.resolve (configured acceptable)).2 = none ∧
      (flags.resolve (configured acceptable)).1.port = 8081 ∧
      (flags.resolve (configured acceptable)).1.serviceDescriptor = "./s.json" ∧
      (flags.resolve (configured unacceptable)).1.logLevel = "info" ∧
      (flags.resolve locked).2 =
        some "failed to read ./config.json: Permission denied (os error 13); using defaults" := by
  intro flags
  have accepted := (flags.resolve_precedence (configured acceptable)).accepted
  have refused := (flags.resolve_precedence (configured unacceptable)).refused
  have unreadable := (flags.resolve_precedence locked).unreadable (.refused .permissionDenied)
  obtain ⟨notice, given⟩ := accepted acceptable _ (readText_configured _) acceptable_gives
  obtain ⟨-, stock⟩ := refused fun text s => unacceptable_gives_nothing
  obtain ⟨denied, -⟩ := unreadable (by cbv) (by cbv)
  refine ⟨notice, ?_, ?_, stock.others.2.1, denied⟩
  · rcases given.port with ⟨kept, -⟩ | replaced
    · exact kept
    · cases replaced
  · rcases given.serviceDescriptor with ⟨-, absent⟩ | replaced
    · cases absent
    · exact (Option.some.inj replaced).symm

end RuleService
