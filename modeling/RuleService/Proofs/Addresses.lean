import Mathlib.Data.List.DropRight
import RuleService.Storage.Objects
import RuleService.Text.Case

namespace RuleService

/-- Spells an address out: a letter s in one of its cases, `3://`, the bucket, a slash and the key. -/
structure Spells (path : String) (a : Address) : Prop where
  spelling : ∃ s ∈ ['s', 'S', '\u017F'],
    path = String.singleton s ++ "3://" ++ a.bucket ++ "/" ++ a.key
  bucket_given : a.bucket ≠ ""
  bucket_slash : '/' ∉ a.bucket.toList
  key_given : a.key ≠ ""
  key_line : '\n' ∉ a.key.toList

namespace Text

variable {c : Char}

theorem upperMany_length : ∀ entry ∈ upperMany, 2 ≤ entry.2.length := by decide +kernel

theorem upperRuns_reach_S : ∀ run ∈ upperRuns,
    (run.1 : Int) + run.2.2.2 ≤ 'S'.toNat → ('S'.toNat : Int) ≤ run.2.1 + run.2.2.2 →
      run.2.2.2 = -300 := by
  decide +kernel

theorem upperAscii_S : ∀ n : Fin 0x80, (Char.ofNat n).toUpper = 'S' →
    Char.ofNat n ∈ ['s', 'S', '\u017F'] := by
  decide +kernel

theorem toNat_of_ofNat_S {n : Nat} (read : Char.ofNat n = 'S') : n = 'S'.toNat := by
  by_cases valid : n.isValidChar
  · rw [Char.ofNat, dif_pos valid] at read
    exact congrArg Char.toNat read
  · rw [Char.ofNat, dif_neg valid] at read
    cases congrArg Char.toNat read

theorem mem_of_lookup {k : Nat} {v : List Nat} {table : List (Nat × List Nat)}
    (found : table.lookup k = some v) : (k, v) ∈ table := by
  obtain ⟨before, after, rfl, -⟩ := List.lookup_eq_some_iff.mp found
  exact List.mem_append_right _ List.mem_cons_self

theorem mem_of_caseOffset? {runs : List (Nat × Nat × Nat × Int)} {n : Nat} {offset : Int}
    (found : caseOffset? runs n = some offset) :
    ∃ first last step, (first, last, step, offset) ∈ runs ∧ first ≤ n ∧ n ≤ last := by
  obtain ⟨⟨first, last, step, offset'⟩, met, rfl⟩ := Option.map_eq_some_iff.mp found
  have within := List.find?_some met
  simp only [Bool.and_eq_true, decide_eq_true_eq] at within
  exact ⟨first, last, step, List.mem_of_find?_eq_some met, within.1⟩

/-- The letters whose upper case is `S`: the small one, itself, and the long s. -/
theorem upperChar_eq_S_iff : upperChar c = ['S'] ↔ c ∈ ['s', 'S', '\u017F'] := by
  constructor
  · intro upper
    unfold upperChar at upper
    split at upper
    · rename_i ascii
      have first := upperAscii_S ⟨c.toNat, ascii⟩
      rw [Char.ofNat_toNat] at first
      exact first (List.singleton_inj.mp upper)
    · unfold caseOf at upper
      split at upper
      · rename_i several found
        have two : 2 ≤ several.length := upperMany_length _ (mem_of_lookup found)
        have one := congrArg List.length upper
        rw [List.length_map] at one
        exact absurd one (by simp; omega)
      · split at upper
        · rename_i offset found
          obtain ⟨first, last, step, listed, low, high⟩ := mem_of_caseOffset? found
          have reached := toNat_of_ofNat_S (List.singleton_inj.mp upper)
          have reach := upperRuns_reach_S _ listed
          have : 'S'.toNat = 83 := rfl
          have far : c.toNat = '\u017F'.toNat := by
            have : '\u017F'.toNat = 383 := rfl
            simp only at reach
            omega
          simp [Char.toNat_inj.mp far]
        · simp [List.singleton_inj.mp upper]
  · simp only [List.mem_cons, List.not_mem_nil, or_false]
    rintro (rfl | rfl | rfl) <;> decide +kernel

end Text

namespace Address

theorem isLetterS_iff {c : Char} : isLetterS c = true ↔ c ∈ ['s', 'S', '\u017F'] := by
  simp [isLetterS, or_assoc]

variable {cs bucket key : List Char} {path : String} {a b : Address}

/-- The bucket ends at the first slash. -/
theorem splitKey?_eq_some_iff : splitKey? cs = some (bucket, key) ↔
    cs = bucket ++ '/' :: key ∧ bucket ≠ [] ∧ '/' ∉ bucket ∧ key ≠ [] ∧ '\n' ∉ key := by
  constructor
  · intro split
    have whole := List.takeWhile_append_dropWhile (p := (· != '/')) (l := cs)
    have slash : '/' ∉ cs.takeWhile (· != '/') := fun inside => by
      simpa using List.mem_takeWhile_imp inside
    unfold splitKey? at split
    generalize cs.takeWhile (· != '/') = taken at split whole slash
    generalize cs.dropWhile (· != '/') = dropped at split whole
    split at split
    · cases split
    · split at split
      · cases split
      · rename_i given accepted
        cases split
        exact ⟨whole.symm, given, slash, by simpa using accepted⟩
    · cases split
  · rintro ⟨rfl, given, slash, keyGiven, line⟩
    have passed : ∀ c ∈ bucket, (c != '/') = true := fun c listed => by
      simpa using ne_of_mem_of_not_mem listed slash
    have taken : (bucket ++ '/' :: key).takeWhile (· != '/') = bucket := by
      rw [List.takeWhile_append_of_pos passed]
      simp
    have dropped : (bucket ++ '/' :: key).dropWhile (· != '/') = '/' :: key := by
      rw [List.dropWhile_append_of_pos passed]
      simp
    simp [splitKey?, taken, dropped, keyGiven, line]

theorem ofChars?_eq_some_iff : ofChars? cs = some a ↔
    ∃ s rest, cs = s :: '3' :: ':' :: '/' :: '/' :: rest ∧ isLetterS s = true ∧
      splitKey? rest = some (a.bucket.toList, a.key.toList) := by
  constructor
  · intro read
    unfold ofChars? at read
    split at read
    · rename_i s rest
      split at read
      · rename_i letter
        obtain ⟨⟨bucket, key⟩, split, rfl⟩ := Option.map_eq_some_iff.mp read
        exact ⟨s, rest, rfl, letter, by simpa using split⟩
      · cases read
    · cases read
  · rintro ⟨s, rest, rfl, letter, split⟩
    simp [ofChars?, letter, split]

/-- Exactly the paths that spell an address out are read as one. -/
theorem ofPath?_eq_some_iff : ofPath? path = some a ↔ Spells path a := by
  rw [ofPath?, ofChars?_eq_some_iff]
  constructor
  · rintro ⟨s, rest, spelled, letter, split⟩
    obtain ⟨rfl, bucket, slash, key, line⟩ := splitKey?_eq_some_iff.mp split
    refine ⟨⟨s, isLetterS_iff.mp letter, ?_⟩, by simpa using bucket, slash, by simpa using key, line⟩
    rw [← String.toList_inj, spelled]
    simp
  · rintro ⟨⟨s, letter, rfl⟩, bucket, slash, key, line⟩
    refine ⟨s, a.bucket.toList ++ '/' :: a.key.toList, by simp, isLetterS_iff.mpr letter, ?_⟩
    exact splitKey?_eq_some_iff.mpr ⟨rfl, by simpa using bucket, slash, by simpa using key, line⟩

theorem ofPath?_eq_none_iff : ofPath? path = none ↔ ∀ a, ¬ Spells path a := by
  simp only [Option.eq_none_iff_forall_ne_some, ne_eq, ofPath?_eq_some_iff]

end Address

variable {path : String} {a b : Address}

/-- A path spells at most one address out. -/
theorem Spells.unique (spells : Spells path a) (spells' : Spells path b) : a = b := by
  have read := Address.ofPath?_eq_some_iff.mpr spells
  rw [Address.ofPath?_eq_some_iff.mpr spells'] at read
  exact (Option.some.inj read).symm

theorem isObjectPath_iff : isObjectPath path = true ↔ ∃ a, Spells path a := by
  simp only [isObjectPath, Option.isSome_iff_exists, Address.ofPath?_eq_some_iff]

namespace ObjectStore

/-- So many slashes. -/
def slashes (n : Nat) : String := String.ofList (List.replicate n '/')

/-- An endpoint as a stem, which does not end in a slash, and the slashes after it. -/
structure Trims (endpoint stem : String) : Prop where
  rest : ∃ n, endpoint = stem ++ slashes n
  bare : stem.toList.getLast? ≠ some '/'

variable {endpoint stem : String}

theorem withoutSlashes_eq (endpoint : String) :
    withoutSlashes endpoint = String.ofList (endpoint.toList.rdropWhile (· == '/')) := rfl

theorem withoutSlashes_append (endpoint : String) (n : Nat) :
    withoutSlashes (endpoint ++ slashes n) = withoutSlashes endpoint := by
  induction n with
  | zero => simp [slashes]
  | succ n ih =>
    rw [← ih]
    simp only [withoutSlashes_eq, slashes, String.toList_append, String.toList_ofList,
      List.replicate_succ', ← List.append_assoc]
    rw [List.rdropWhile_concat_pos _ _ _ rfl]

theorem withoutSlashes_of_bare (bare : stem.toList.getLast? ≠ some '/') :
    withoutSlashes stem = stem := by
  have kept : stem.toList.rdropWhile (· == '/') = stem.toList := by
    rw [List.rdropWhile_eq_self_iff]
    intro given last
    rw [List.getLast?_eq_some_getLast given] at bare
    exact bare (congrArg some (by simpa using last))
  rw [withoutSlashes_eq, kept, String.ofList_toList]

theorem Trims.withoutSlashes_eq (trims : Trims endpoint stem) : withoutSlashes endpoint = stem := by
  obtain ⟨⟨n, rfl⟩, bare⟩ := trims
  rw [withoutSlashes_append, withoutSlashes_of_bare bare]

/-- The slashes at the end of an endpoint are dropped, all of them and nothing else. -/
theorem trims_withoutSlashes (endpoint : String) : Trims endpoint (withoutSlashes endpoint) := by
  refine ⟨⟨(endpoint.toList.rtakeWhile (· == '/')).length, ?_⟩, ?_⟩
  · have all : endpoint.toList.rtakeWhile (· == '/') =
        List.replicate (endpoint.toList.rtakeWhile (· == '/')).length '/' :=
      List.eq_replicate_of_mem fun c listed => by simpa using List.mem_rtakeWhile_imp listed
    rw [← String.toList_inj, String.toList_append, withoutSlashes_eq, slashes, String.toList_ofList,
      String.toList_ofList, ← all, List.rdropWhile_append_rtakeWhile]
  · intro last
    rw [withoutSlashes_eq, String.toList_ofList] at last
    obtain ⟨before, split⟩ := List.getLast?_eq_some_iff.mp last
    have given : endpoint.toList.rdropWhile (· == '/') ≠ [] := by simp [split]
    exact List.rdropWhile_last_not _ _ given (by simp [split])

/-- The URL of an object, put together from its parts. -/
theorem urlOf?_eq (trims : Trims endpoint stem) (spells : Spells path a) :
    urlOf? endpoint path = some (stem ++ "/" ++ a.bucket ++ "/" ++ a.key) := by
  rw [urlOf?, Address.ofPath?_eq_some_iff.mpr spells, Option.map_some, url, trims.withoutSlashes_eq]

theorem urlOf?_eq_none_iff : urlOf? endpoint path = none ↔ ∀ a, ¬ Spells path a := by
  rw [urlOf?, Option.map_eq_none_iff, Address.ofPath?_eq_none_iff]

theorem urlOf?_append_slashes (endpoint path : String) (n : Nat) :
    urlOf? (endpoint ++ slashes n) path = urlOf? endpoint path := by
  have same : url (endpoint ++ slashes n) = url endpoint := by
    funext a
    rw [url, url, withoutSlashes_append]
  rw [urlOf?, urlOf?, same]

/-- What an object is served with at a URL is what the path is read as. -/
def Fetches (endpoint path url : String) : Prop :=
  ∀ get body, get url = .answered 200 body → body.size ≤ sizeLimit →
    (ObjectStore.mk endpoint get).read path = .ok (Text.ofBytes body)

theorem fetches_of_urlOf? {url : String} (found : urlOf? endpoint path = some url) :
    Fetches endpoint path url := by
  intro get body answered fits
  simp [read, found, answered, fits]

theorem read_refused (none : ∀ a, ¬ Spells path a) (store : ObjectStore) :
    store.read path = .error (.unreadable path "not an object storage URI") := by
  simp only [read, urlOf?_eq_none_iff.mpr none]

end ObjectStore

/-- Where a path goes: to the objects, one of which it leads to, or to the files, and then the reader of
objects refuses it whatever there is in storage. -/
inductive Goes (path : String) : Prop
  | toObjects (a : Address) (spells : Spells path a)
      (handed : ∀ readers : Readers, readers.read path = readers.objects path)
      (fetched : ∀ endpoint, ∃ url, ObjectStore.urlOf? endpoint path = some url ∧
        ObjectStore.Fetches endpoint path url)
  | toFiles (none : ∀ a, ¬ Spells path a)
      (handed : ∀ readers : Readers, readers.read path = readers.files path)
      (refused : ∀ store : ObjectStore,
        store.read path = .error (.unreadable path "not an object storage URI"))

theorem goes (path : String) : Goes path := by
  by_cases spelled : ∃ a, Spells path a
  · have object := isObjectPath_iff.mpr spelled
    obtain ⟨a, spells⟩ := spelled
    refine .toObjects a spells (fun readers => by rw [Readers.read, if_pos object]) fun endpoint => ?_
    have found := ObjectStore.urlOf?_eq (ObjectStore.trims_withoutSlashes endpoint) spells
    exact ⟨_, found, ObjectStore.fetches_of_urlOf? found⟩
  · have notObject : ¬ isObjectPath path = true := fun object => spelled (isObjectPath_iff.mp object)
    have none : ∀ a, ¬ Spells path a := fun a spells => spelled ⟨a, spells⟩
    exact .toFiles none (fun readers => by rw [Readers.read, if_neg notObject])
      (ObjectStore.read_refused none)

open ObjectStore in
/-- The paths that are addresses of objects, which reader they go to, and the URL they stand for. -/
structure ObjectAddresses : Prop where
  letter : ∀ s, s ∈ ['s', 'S', '\u017F'] ↔ Text.upperChar s = ['S']
  spells : ∀ path a, Address.ofPath? path = some a ↔ Spells path a
  unique : ∀ path a b, Spells path a → Spells path b → a = b
  isObject : ∀ path, isObjectPath path = true ↔ ∃ a, Address.ofPath? path = some a
  goes : ∀ path, Goes path
  trimmed : ∀ endpoint, ∃ stem, Trims endpoint stem
  url : ∀ endpoint stem path a, Trims endpoint stem → Spells path a →
    urlOf? endpoint path = some (stem ++ "/" ++ a.bucket ++ "/" ++ a.key)
  noUrl : ∀ endpoint path, urlOf? endpoint path = none ↔ ∀ a, ¬ Spells path a
  slashes : ∀ endpoint path m n,
    urlOf? (endpoint ++ slashes m) path = urlOf? (endpoint ++ slashes n) path

/-- Every path is read as an address of an object just if it is spelled as one. -/
theorem Address.ofPath_addresses : ObjectAddresses where
  letter _ := Text.upperChar_eq_S_iff.symm
  spells _ _ := Address.ofPath?_eq_some_iff
  unique _ _ _ := Spells.unique
  isObject _ := Option.isSome_iff_exists
  goes := goes
  trimmed _ := ⟨_, ObjectStore.trims_withoutSlashes _⟩
  url _ _ _ _ := ObjectStore.urlOf?_eq
  noUrl _ _ := ObjectStore.urlOf?_eq_none_iff
  slashes endpoint path m n := by
    rw [ObjectStore.urlOf?_append_slashes, ObjectStore.urlOf?_append_slashes]

/-- A long s before a bucket with a line break in it and a key that begins with a slash. -/
theorem Address.ofPath_addresses_folded :
    Spells "ſ3://a\nb//c" ⟨"a\nb", "/c"⟩ ∧
      ObjectStore.urlOf? "http://h//" "ſ3://a\nb//c" = some "http://h/a\nb//c" := by
  have all := Address.ofPath_addresses
  have spells : Spells "ſ3://a\nb//c" ⟨"a\nb", "/c"⟩ := (all.spells _ _).mp (by decide +kernel)
  have trims : ObjectStore.Trims "http://h//" "http://h" := ⟨⟨2, by decide +kernel⟩, by decide +kernel⟩
  exact ⟨spells, all.url _ _ _ _ trims spells⟩

end RuleService
