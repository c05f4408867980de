import RuleService.Proofs.Bindings
import RuleService.Proofs.Cutting
import RuleService.Service.Pattern

namespace RuleService

/-- What can stand between two slashes. -/
def IsPathPart (text : String) : Prop := text ≠ "" ∧ '/' ∉ text.toList

/-- Paths that differ only in slashes at their ends and in repeated ones. -/
inductive SlashesAside : String → String → Prop
  | leading (path : String) : SlashesAside ("/" ++ path) path
  | trailing (path : String) : SlashesAside (path ++ "/") path
  | repeated (front back : String) : SlashesAside (front ++ "//" ++ back) (front ++ "/" ++ back)
  | refl (path : String) : SlashesAside path path
  | symm {path other : String} (aside : SlashesAside path other) : SlashesAside other path
  | trans {path other third : String} (first : SlashesAside path other)
      (second : SlashesAside other third) : SlashesAside path third

/-- What stands between the slashes of a text, as far as anything does. -/
def slashParts (text : String) : List String :=
  ((text.toList.splitOn '/').map String.ofList).filter (!·.isEmpty)

theorem pathParts_eq (path : String) : pathParts path = slashParts path := by
  have single : "/" = String.singleton '/' := rfl
  rw [pathParts, single, Text.split_singleton, slashParts]

theorem isPathPart_of_mem {path part : String} (listed : part ∈ pathParts path) :
    IsPathPart part := by
  rw [pathParts_eq, slashParts, List.mem_filter, List.mem_map] at listed
  obtain ⟨⟨chars, split, rfl⟩, some⟩ := listed
  have apart := Text.not_mem_of_mem_splitOn split
  exact ⟨by simpa using some, by simpa using apart⟩

theorem pathParts_append (front back : String) :
    pathParts (front ++ "/" ++ back) = pathParts front ++ pathParts back := by
  have text : (front ++ "/" ++ back).toList = front.toList ++ '/' :: back.toList := by simp
  rw [pathParts_eq, slashParts, text, List.splitOn_append_cons_self, List.map_append, List.filter_append,
    pathParts_eq, pathParts_eq, slashParts, slashParts]

theorem pathParts_empty : pathParts "" = [] := by decide

theorem SlashesAside.pathParts {path other : String} (aside : SlashesAside path other) :
    pathParts path = pathParts other := by
  induction aside with
  | leading path => simpa [pathParts_empty] using pathParts_append "" path
  | trailing path => simpa [pathParts_empty] using pathParts_append path ""
  | repeated front back =>
    have twice : front ++ "//" ++ back = front ++ "/" ++ ("" ++ "/" ++ back) := by
      apply String.toList_injective
      simp
    rw [twice, pathParts_append, pathParts_append, pathParts_append, pathParts_empty, List.nil_append]
  | refl => rfl
  | symm _ ih => exact ih.symm
  | trans _ _ first second => exact first.trans second

theorem pathParts_intercalate {parts : List String} (fit : ∀ part ∈ parts, IsPathPart part) :
    pathParts ("/".intercalate parts) = parts := by
  cases parts with
  | nil => exact pathParts_empty
  | cons part parts =>
    have apart : ∀ chars ∈ (part :: parts).map String.toList, '/' ∉ chars := by
      intro chars listed
      obtain ⟨text, member, rfl⟩ := List.mem_map.mp listed
      exact (fit text member).2
    have kept : ∀ text ∈ part :: parts, (!text.isEmpty) = true := by
      intro text listed
      simpa using (fit text listed).1
    have slash : "/".toList = ['/'] := rfl
    rw [pathParts_eq, slashParts, String.toList_intercalate, slash,
      List.splitOn_intercalate '/' apart (List.cons_ne_nil _ _), List.map_map]
    simpa [Function.comp_def] using kept

namespace Pattern

/-- A part of a pattern that takes a part of a path: any, any by a name, or this one in any case. -/
def Takes (text part : String) : Prop :=
  text = "*" ∨ (∃ name, name ≠ "" ∧ text = ":" ++ name) ∨ sameName part text = true

/-- The last part of the pattern takes all that is left. -/
def TakesRest (ps : List String) : Prop := ps.getLast? = some "*"

instance (ps : List String) : Decidable (TakesRest ps) := decEq ps.getLast? (some "*")

/-- The part of a pattern at a place has this name. -/
def Names (ps : List String) (i : Nat) (name : String) : Prop :=
  name ≠ "" ∧ ps[i]? = some (":" ++ name)

/-- The parts of a pattern line up with those of a path. -/
structure LinesUp (ps xs : List String) : Prop where
  each : ∀ (i : Nat) (text : String), ps[i]? = some text →
    (text = "*" ∧ i + 1 = ps.length) ∨ ∃ part, xs[i]? = some part ∧ Takes text part
  count : ¬ TakesRest ps → xs.length = ps.length

/-- A name is bound to a text: `0` to the rest of the path, if the pattern takes the rest, and any other
name to the part at the last place that has it. -/
inductive Binds (ps xs : List String) (name value : String) : Prop
  | rest (all : TakesRest ps) (here : name = restName)
      (joined : value = "/".intercalate (xs.drop (ps.length - 1)))
  | part {i : Nat} (other : ¬ (TakesRest ps ∧ name = restName)) (here : Names ps i name)
      (taken : xs[i]? = some value) (last : ∀ j, i < j → ¬ Names ps j name)

/-- The text that a name is bound to. -/
def bound (ps xs : List String) (name : String) : Option String :=
  if TakesRest ps ∧ name = restName then
    some ("/".intercalate (xs.drop (ps.length - 1)))
  else if name = "" then none
  else (ps.zip xs).reverse.lookup (":" ++ name)

/-- A pattern with its parts filled in: names and inner wildcards with the values of their places, and the
wildcard at the end with the rest. -/
def fill (value : Nat → String) (rest : List String) : List String → List String
  | [] => []
  | ["*"] => rest
  | text :: ps =>
    (match Segment.ofText text with
      | .literal text => text
      | _ => value 0) :: fill (fun i => value (i + 1)) rest ps

end Pattern

theorem Segment.ofText_named {name : String} (some : name ≠ "") :
    ofText (":" ++ name) = .param name := by
  obtain ⟨c, cs, chars⟩ := List.exists_cons_of_ne_nil (mt String.toList_eq_nil_iff.mp some)
  have text : (":" ++ name).toList = ':' :: c :: cs := by simp [chars]
  rw [ofText, text]
  change Segment.param (String.ofList (c :: cs)) = .param name
  rw [← chars, String.ofList_toList]

theorem Segment.ofText_cases (text : String) :
    (text = "*" ∧ ofText text = .wildcard) ∨
      (∃ name, name ≠ "" ∧ text = ":" ++ name ∧ ofText text = .param name) ∨
      (text ≠ "*" ∧ (∀ name, name ≠ "" → text ≠ ":" ++ name) ∧ ofText text = .literal text) := by
  by_cases star : text = "*"
  · exact .inl ⟨star, by rw [star]; rfl⟩
  by_cases named : ∃ name, name ≠ "" ∧ text = ":" ++ name
  · obtain ⟨name, some, rfl⟩ := named
    exact .inr (.inl ⟨name, some, rfl, ofText_named some⟩)
  · refine .inr (.inr ⟨star, fun name some eq => named ⟨name, some, eq⟩, ?_⟩)
    unfold ofText
    split
    · next chars =>
      exact absurd (String.toList_injective chars) star
    · next c cs chars =>
      refine absurd ⟨String.ofList (c :: cs), by simp, ?_⟩ named
      apply String.toList_injective
      simp [chars]
    · rfl

namespace Pattern

variable {ps xs : List String} {p x name v : String}

/-- A part that is not a wildcard at the end. -/
def Inner (p : String) (ps : List String) : Prop := ¬ (p = "*" ∧ ps = [])

theorem TakesRest.length_eq (all : TakesRest ps) : ∃ k, ps.length = k + 1 := by
  cases ps with
  | nil => cases all
  | cons => exact ⟨_, rfl⟩

theorem takesRest_cons (inner : Inner p ps) : TakesRest (p :: ps) ↔ TakesRest ps := by
  cases ps with
  | nil =>
    have other : p ≠ "*" := fun star => inner ⟨star, rfl⟩
    simp [TakesRest, other]
  | cons => simp [TakesRest]

theorem names_cons_succ (i : Nat) : Names (p :: ps) (i + 1) name ↔ Names ps i name := by
  simp [Names]

theorem linesUp_nil : LinesUp [] xs ↔ xs = [] := by
  constructor
  · intro h
    exact List.eq_nil_of_length_eq_zero (h.count nofun)
  · rintro rfl
    exact ⟨nofun, fun _ => rfl⟩

theorem linesUp_star : LinesUp ["*"] xs := by
  refine ⟨fun i text found => ?_, fun inner => absurd rfl inner⟩
  cases i with
  | zero => exact .inl ⟨(Option.some.inj found).symm, rfl⟩
  | succ i => cases found

theorem linesUp_short (inner : Inner p ps) : ¬ LinesUp (p :: ps) [] := by
  intro h
  obtain ⟨star, length⟩ | ⟨part, found, -⟩ := h.each 0 p rfl
  · exact inner ⟨star, List.eq_nil_of_length_eq_zero (by simpa using length)⟩
  · cases found

theorem linesUp_cons (inner : Inner p ps) :
    LinesUp (p :: ps) (x :: xs) ↔ Takes p x ∧ LinesUp ps xs := by
  constructor
  · intro h
    refine ⟨?_, fun i text found => ?_, fun closed => ?_⟩
    · obtain ⟨star, length⟩ | ⟨part, found, takes⟩ := h.each 0 p rfl
      · exact absurd ⟨star, List.eq_nil_of_length_eq_zero (by simpa using length)⟩ inner
      · rwa [← Option.some.inj found] at takes
    · simpa using h.each (i + 1) text (by simpa using found)
    · simpa using h.count (mt (takesRest_cons inner).mp closed)
  · rintro ⟨takes, h⟩
    refine ⟨fun i text found => ?_, fun closed => ?_⟩
    · cases i with
      | zero =>
        obtain rfl : p = text := Option.some.inj found
        exact .inr ⟨x, rfl, takes⟩
      | succ i => simpa using h.each i text (by simpa using found)
    · simpa using h.count (mt (takesRest_cons inner).mpr closed)

theorem star_ne_colon : "*" ≠ ":" ++ name := by
  intro eq
  have chars := congrArg String.toList eq
  simp at chars

theorem bound_star : bound ["*"] xs name =
    if name = restName then some ("/".intercalate xs) else none := by
  by_cases zero : name = restName
  · simp [bound, TakesRest, zero]
  · have colon : ":" ++ name ≠ "*" := star_ne_colon.symm
    cases xs <;> simp [bound, zero, colon]

theorem bound_cons (inner : Inner p ps) : bound (p :: ps) (x :: xs) name =
    (bound ps xs name).or (if name ≠ "" ∧ p = ":" ++ name then some x else none) := by
  have last := takesRest_cons inner
  unfold bound
  by_cases rest : TakesRest ps ∧ name = restName
  · obtain ⟨k, length⟩ := rest.1.length_eq
    simp [last, rest, length]
  · rw [if_neg rest, if_neg (by rwa [last])]
    by_cases empty : name = ""
    · simp [empty]
    · rw [if_neg empty, if_neg empty, List.zip_cons_cons, lookup_reverse_cons]
      simp [empty, eq_comm]

variable {s : Segment} {segments : Pattern} {params out : Texts}

theorem matchParts_rest :
    matchParts params [.wildcard] xs = some (params.put restName ("/".intercalate xs)) := by
  cases xs <;> rfl

theorem matchParts_short (inner : ¬ (s = .wildcard ∧ segments = [])) :
    matchParts params (s :: segments) [] = none := by
  cases s with
  | wildcard =>
    cases segments with
    | nil => exact absurd ⟨rfl, rfl⟩ inner
    | cons => rfl
  | literal | param => rfl

theorem matchParts_wildcard (more : segments ≠ []) :
    matchParts params (.wildcard :: segments) (x :: xs) = matchParts params segments xs := by
  cases segments with
  | nil => exact absurd rfl more
  | cons => rfl

theorem inner_ofText (inner : Inner p ps) :
    ¬ (Segment.ofText p = .wildcard ∧ ps.map Segment.ofText = []) := by
  rintro ⟨wildcard, none⟩
  refine inner ⟨?_, List.map_eq_nil_iff.mp none⟩
  obtain ⟨star, -⟩ | ⟨name, -, -, param⟩ | ⟨-, -, literal⟩ := Segment.ofText_cases p
  · exact star
  · cases wildcard.symm.trans param
  · cases wildcard.symm.trans literal

/-- Taking a part binds it if it has a name. -/
theorem matchParts_cons (params : Texts) (inner : Inner p ps) (takes : Takes p x) :
    matchParts params ((p :: ps).map Segment.ofText) (x :: xs) =
        matchParts params (ps.map Segment.ofText) xs ∧ (∀ name, name ≠ "" → p ≠ ":" ++ name) ∨
      ∃ name, name ≠ "" ∧ p = ":" ++ name ∧
        matchParts params ((p :: ps).map Segment.ofText) (x :: xs) =
          matchParts (params.put name x) (ps.map Segment.ofText) xs := by
  rw [List.map_cons]
  obtain ⟨star, wildcard⟩ | ⟨name, some, here, param⟩ | ⟨star, free, literal⟩ :=
    Segment.ofText_cases p
  · have more : ps.map Segment.ofText ≠ [] := fun none => inner_ofText inner ⟨wildcard, none⟩
    refine .inl ⟨by rw [wildcard, matchParts_wildcard more], fun name some other => ?_⟩
    exact star_ne_colon (star.symm.trans other)
  · exact .inr ⟨name, some, here, by rw [param]; rfl⟩
  · refine .inl ⟨?_, free⟩
    obtain here | ⟨name, some, here⟩ | same := takes
    · exact absurd here star
    · exact absurd here (free name some)
    · rw [literal, matchParts, if_pos same]

theorem matchParts_refused (refused : ¬ Takes p x) :
    matchParts params ((p :: ps).map Segment.ofText) (x :: xs) = none := by
  simp only [Takes, not_or] at refused
  obtain ⟨star, free, other⟩ := refused
  obtain ⟨here, -⟩ | ⟨name, some, here, -⟩ | ⟨-, -, literal⟩ := Segment.ofText_cases p
  · exact absurd here star
  · exact absurd ⟨name, some, here⟩ free
  · rw [List.map_cons, literal, matchParts, if_neg other]

theorem matchParts_isSome_iff :
    (matchParts params (ps.map Segment.ofText) xs).isSome ↔ LinesUp ps xs := by
  induction ps generalizing params xs with
  | nil =>
    rw [linesUp_nil]
    cases xs <;> simp [matchParts]
  | cons p ps ih =>
    by_cases inner : Inner p ps
    · cases xs with
      | nil =>
        rw [List.map_cons, matchParts_short (inner_ofText inner)]
        simp [linesUp_short inner]
      | cons x xs =>
        rw [linesUp_cons inner]
        by_cases takes : Takes p x
        · obtain ⟨step, -⟩ | ⟨name, -, -, step⟩ := matchParts_cons params inner takes
          all_goals rw [step, ih]; exact ⟨fun rest => ⟨takes, rest⟩, And.right⟩
        · rw [matchParts_refused takes]
          simp [takes]
    · obtain ⟨rfl, rfl⟩ := not_not.mp inner
      have rest : matchParts params (["*"].map Segment.ofText) xs = _ := matchParts_rest
      rw [rest]
      simp [linesUp_star]

theorem get?_of_matchParts (matched : matchParts params (ps.map Segment.ofText) xs = some out) :
    out.get? name = (bound ps xs name).or (params.get? name) := by
  induction ps generalizing params xs with
  | nil =>
    cases xs with
    | nil =>
      obtain rfl := Option.some.inj matched
      simp [bound, TakesRest]
    | cons => cases matched
  | cons p ps ih =>
    by_cases inner : Inner p ps
    · cases xs with
      | nil =>
        rw [List.map_cons, matchParts_short (inner_ofText inner)] at matched
        cases matched
      | cons x xs =>
        have takes : Takes p x := by
          by_contra refused
          rw [matchParts_refused refused] at matched
          cases matched
        rw [bound_cons inner, Option.or_assoc]
        obtain ⟨step, free⟩ | ⟨key, some, here, step⟩ :=
          matchParts_cons params inner takes
        · rw [step] at matched
          rw [ih matched, if_neg (fun both => free name both.1 both.2), Option.none_or]
        · rw [step] at matched
          have same : (name ≠ "" ∧ p = ":" ++ name) ↔ name = key := by
            rw [here, String.append_right_inj]
            exact ⟨fun both => both.2.symm, fun eq => ⟨eq ▸ some, eq.symm⟩⟩
          rw [ih matched, Named.get?_put]
          simp only [same]
          congr 1
          split <;> rfl
    · obtain ⟨rfl, rfl⟩ := not_not.mp inner
      obtain rfl := Option.some.inj (matchParts_rest.symm.trans matched)
      rw [bound_star, Named.get?_put]
      split <;> rfl

theorem bound_eq_some_iff (h : LinesUp ps xs) : bound ps xs name = some v ↔ Binds ps xs name v := by
  unfold bound
  by_cases rest : TakesRest ps ∧ name = restName
  · rw [if_pos rest, Option.some_inj]
    constructor
    · intro joined
      exact .rest rest.1 rest.2 joined.symm
    · rintro (⟨-, -, joined⟩ | other)
      · exact joined.symm
      · exact absurd rest other
  · rw [if_neg rest]
    by_cases empty : name = ""
    · rw [if_pos empty]
      refine ⟨nofun, ?_⟩
      rintro (⟨all, here, -⟩ | ⟨-, here, -, -⟩)
      · exact absurd ⟨all, here⟩ rest
      · exact absurd empty here.1
    · rw [if_neg empty, lookup_reverse_iff]
      simp only [List.getElem?_zip_eq_some, ne_eq, not_and]
      constructor
      · rintro ⟨i, ⟨here, taken⟩, last⟩
        refine .part rest ⟨empty, here⟩ taken fun j behind later => ?_
        obtain ⟨star, -⟩ | ⟨part, found, -⟩ := h.each j _ later.2
        · exact star_ne_colon star.symm
        · exact last j behind part later.2 found
      · rintro (⟨all, here, -⟩ | ⟨-, here, taken, last⟩)
        · exact absurd ⟨all, here⟩ rest
        · exact ⟨_, ⟨here.2, taken⟩, fun j behind w later _ => last j behind ⟨empty, later⟩⟩

variable {value : Nat → String} {rest : List String}

theorem fill_cons (name : String) (inner : Inner p ps) : ∃ part, Takes p part ∧
    (Names (p :: ps) 0 name → part = value 0) ∧
    (IsPathPart p → IsPathPart (value 0) → IsPathPart part) ∧
    fill value rest (p :: ps) = part :: fill (fun i => value (i + 1)) rest ps := by
  have step : fill value rest (p :: ps) =
      (match Segment.ofText p with
        | .literal text => text
        | _ => value 0) :: fill (fun i => value (i + 1)) rest ps := by
    rw [fill]
    rintro rfl rfl
    exact inner ⟨rfl, rfl⟩
  obtain ⟨star, wildcard⟩ | ⟨key, some, here, param⟩ | ⟨-, free, literal⟩ := Segment.ofText_cases p
  · exact ⟨value 0, .inl star, fun _ => rfl, fun _ fit => fit, by rw [step, wildcard]⟩
  · exact ⟨value 0, .inr (.inl ⟨key, some, here⟩), fun _ => rfl, fun _ fit => fit,
      by rw [step, param]⟩
  · refine ⟨p, .inr (.inr (beq_self_eq_true _)), fun named => ?_, fun fit _ => fit,
      by rw [step, literal]⟩
    exact absurd (Option.some.inj named.2) (free name named.1)

theorem linesUp_fill : LinesUp ps (fill value rest ps) := by
  induction ps generalizing value with
  | nil => exact linesUp_nil.mpr rfl
  | cons p ps ih =>
    by_cases inner : Inner p ps
    · obtain ⟨part, takes, -, -, step⟩ := fill_cons "" inner
      rw [step]
      exact (linesUp_cons inner).mpr ⟨takes, ih⟩
    · obtain ⟨rfl, rfl⟩ := not_not.mp inner
      exact linesUp_star

theorem drop_fill (all : TakesRest ps) : (fill value rest ps).drop (ps.length - 1) = rest := by
  induction ps generalizing value with
  | nil => cases all
  | cons p ps ih =>
    by_cases inner : Inner p ps
    · obtain ⟨part, -, -, -, step⟩ := fill_cons "" inner
      have last := (takesRest_cons inner).mp all
      obtain ⟨k, length⟩ := last.length_eq
      have drop : (fill (fun i => value (i + 1)) rest ps).drop (ps.length - 1) = rest := ih last
      rw [length, Nat.add_sub_cancel] at drop
      rw [step, List.length_cons, length, Nat.add_sub_cancel, List.drop_succ_cons, drop]
    · obtain ⟨rfl, rfl⟩ := not_not.mp inner
      rfl

theorem getElem?_fill {i : Nat} (named : Names ps i name) :
    (fill value rest ps)[i]? = some (value i) := by
  induction ps generalizing value i with
  | nil => cases named.2
  | cons p ps ih =>
    by_cases inner : Inner p ps
    · obtain ⟨part, -, first, -, step⟩ := fill_cons name inner
      rw [step]
      cases i with
      | zero => rw [List.getElem?_cons_zero, first named]
      | succ i => exact ih ((names_cons_succ i).mp named)
    · obtain ⟨rfl, rfl⟩ := not_not.mp inner
      cases i with
      | zero => exact absurd (Option.some.inj named.2) star_ne_colon
      | succ => cases named.2

theorem isPathPart_of_mem_fill (parts : ∀ p ∈ ps, IsPathPart p) (values : ∀ i, IsPathPart (value i))
    (rests : ∀ part ∈ rest, IsPathPart part) : ∀ part ∈ fill value rest ps, IsPathPart part := by
  induction ps generalizing value with
  | nil => nofun
  | cons p ps ih =>
    by_cases inner : Inner p ps
    · obtain ⟨part, -, -, fit, step⟩ := fill_cons "" inner
      have tail := ih (fun q listed => parts q (.tail _ listed)) (fun i => values (i + 1))
      rw [step, List.forall_mem_cons]
      exact ⟨fit (parts p List.mem_cons_self) (values 0), tail⟩
    · obtain ⟨rfl, rfl⟩ := not_not.mp inner
      exact rests

/-- Values and parts that can be filled in and told from the path. -/
structure Fills (ps : List String) (value : Nat → String) (rest : List String) : Prop where
  distinct : ∀ i j name, Names ps i name → Names ps j name → i = j
  free : TakesRest ps → ∀ i, ¬ Names ps i restName
  values : ∀ i, IsPathPart (value i)
  rests : ∀ part ∈ rest, IsPathPart part

theorem binds_fill (fills : Fills ps value rest) : Binds ps (fill value rest ps) name v ↔
    (TakesRest ps ∧ name = restName ∧ v = "/".intercalate rest) ∨
      ∃ i, Names ps i name ∧ v = value i := by
  constructor
  · rintro (⟨all, here, joined⟩ | ⟨-, here, taken, -⟩)
    · exact .inl ⟨all, here, by rw [joined, drop_fill all]⟩
    · rw [getElem?_fill here] at taken
      exact .inr ⟨_, here, (Option.some.inj taken).symm⟩
  · rintro (⟨all, here, joined⟩ | ⟨i, here, rfl⟩)
    · exact .rest all here (by rw [joined, drop_fill all])
    · refine .part (fun ⟨all, zero⟩ => fills.free all i (zero ▸ here)) here (getElem?_fill here) ?_
      intro j behind later
      have same := fills.distinct i j name here later
      omega

variable (pattern path : String)

theorem match?_isSome_iff : ((ofText pattern).match? path).isSome ↔
    LinesUp (slashParts pattern) (slashParts path) := by
  rw [match?, ofText, matchParts_isSome_iff, pathParts_eq, pathParts_eq]

theorem match?_binds {pattern path : String} (matched : (ofText pattern).match? path = some out) :
    out.get? name = some v ↔ Binds (slashParts pattern) (slashParts path) name v := by
  have lines := (match?_isSome_iff pattern path).mp (Option.isSome_of_mem matched)
  rw [match?, ofText, pathParts_eq, pathParts_eq] at matched
  rw [get?_of_matchParts matched, ← bound_eq_some_iff lines]
  simp [Named.get?]

theorem slashParts_fill (fills : Fills (slashParts pattern) value rest) :
    slashParts ("/".intercalate (fill value rest (slashParts pattern))) =
      fill value rest (slashParts pattern) := by
  rw [← pathParts_eq, pathParts_intercalate]
  refine isPathPart_of_mem_fill (fun part listed => ?_) fills.values fills.rests
  exact isPathPart_of_mem ((pathParts_eq pattern).symm ▸ listed)

/-- What the match of a pattern and a path comes to, told on the parts of the two texts. -/
structure Exact (pattern path : String) : Prop where
  isSome_iff : ((ofText pattern).match? path).isSome ↔ LinesUp (slashParts pattern) (slashParts path)
  binds : ∀ params, (ofText pattern).match? path = some params → ∀ name v,
    params.get? name = some v ↔ Binds (slashParts pattern) (slashParts path) name v
  /-- Filled in, a pattern is a path that it matches, and what fills it is bound. -/
  filled : ∀ value rest, Fills (slashParts pattern) value rest →
    slashParts ("/".intercalate rest) = rest ∧
    ∃ params, (ofText pattern).match?
        ("/".intercalate (fill value rest (slashParts pattern))) = some params ∧
      ∀ name v, params.get? name = some v ↔
        (TakesRest (slashParts pattern) ∧ name = restName ∧ v = "/".intercalate rest) ∨
          ∃ i, Names (slashParts pattern) i name ∧ v = value i
  slashes : ∀ pattern' path', SlashesAside pattern pattern' → SlashesAside path path' →
    (ofText pattern').match? path' = (ofText pattern).match? path

/-- A pattern matches a path just if their parts line up, and binds what stands at the places of its names;
slashes at the ends and repeated ones make no difference. -/
theorem ofText_exact : Exact pattern path where
  isSome_iff := match?_isSome_iff pattern path
  binds params matched name v := match?_binds matched
  filled value rest fills := by
    have parts := slashParts_fill pattern fills
    have matched : ((ofText pattern).match?
        ("/".intercalate (fill value rest (slashParts pattern)))).isSome := by
      rw [match?_isSome_iff, parts]
      exact linesUp_fill
    obtain ⟨params, matched⟩ := Option.isSome_iff_exists.mp matched
    refine ⟨by rw [← pathParts_eq, pathParts_intercalate fills.rests], params, matched, ?_⟩
    intro name v
    rw [match?_binds matched, parts, binds_fill fills]
  slashes pattern' path' aside aside' := by
    rw [ofText, ofText, match?, match?, aside.pathParts, aside'.pathParts]

/-- A pattern with a name before a wildcard at the end. -/
theorem ofText_exact_users :
    slashParts "/users/:id/*" = ["users", ":id", "*"] ∧
    (∃ params, (ofText "/users/:id/*").match? "users/ann/a/b" = some params ∧
      params.get? "id" = some "ann" ∧ params.get? "0" = some "a/b") ∧
    (ofText "users/:id/*").match? "users/ann/a/b" =
      (ofText "/users/:id/*").match? "users/ann/a/b" := by
  have parts : slashParts "/users/:id/*" = ["users", ":id", "*"] := by decide
  have place : ∀ i name, Names ["users", ":id", "*"] i name → i = 1 ∧ name = "id" := by
    rintro i name ⟨-, here⟩
    have chars := congrArg (Option.map String.toList) here
    match i with
    | 0 | 2 => simp at chars
    | 1 => exact ⟨rfl, String.toList_injective (by simpa using chars.symm)⟩
    | i + 3 => simp at chars
  have fills : Fills (slashParts "/users/:id/*") (fun _ => "ann") ["a", "b"] := by
    rw [parts]
    refine ⟨fun i j name here there => ?_, fun _ i here => ?_, fun _ => ?_, ?_⟩
    · rw [(place i name here).1, (place j name there).1]
    · exact absurd (place i restName here).2 (by decide)
    · exact ⟨by decide, by decide⟩
    · intro part listed
      obtain rfl | rfl : part = "a" ∨ part = "b" := by simpa using listed
      all_goals exact ⟨by decide, by decide⟩
  have aside : SlashesAside "/users/:id/*" "users/:id/*" := by
    have text : "/users/:id/*" = "/" ++ "users/:id/*" := by decide
    exact text ▸ .leading "users/:id/*"
  have exact := ofText_exact "/users/:id/*" "users/ann/a/b"
  obtain ⟨-, params, matched, binds⟩ := exact.filled (fun _ => "ann") ["a", "b"] fills
  rw [parts] at matched binds
  have path : "/".intercalate (fill (fun _ => "ann") ["a", "b"] ["users", ":id", "*"]) =
      "users/ann/a/b" := by decide
  rw [path] at matched
  refine ⟨parts, ⟨params, matched, ?_, ?_⟩, exact.slashes _ _ aside (.refl _)⟩
  · exact (binds "id" "ann").mpr (.inr ⟨1, ⟨by decide, by decide⟩, rfl⟩)
  · exact (binds "0" "a/b").mpr (.inl ⟨by decide, rfl, by decide⟩)

end Pattern

end RuleService
