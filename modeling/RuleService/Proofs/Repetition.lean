import RuleService.Proofs.Bindings
import RuleService.Proofs.Interpolation

namespace RuleService

open Effect

/-- An element as a document in one context after the other. -/
inductive InTurn (h : Host) (element : Json) :
    List Context → State → Except Failure (List Json) → State → Prop
  | nil (s : State) : InTurn h element [] s (.ok []) s
  | failed {ctx : Context} {rest : List Context} {s t : State} {f : Failure}
      (fails : (interpolateDocument h ctx element).outcome s = (.error f, t)) :
      InTurn h element (ctx :: rest) s (.error f) t
  | cons {ctx : Context} {rest : List Context} {s t u : State} {v : Json}
      {r : Except Failure (List Json)}
      (first : (interpolateDocument h ctx element).outcome s = (.ok v, t))
      (others : InTurn h element rest t r u) :
      InTurn h element (ctx :: rest) s (r.map (v :: ·)) u

section Turns

variable {h : Host} {element : Json} {ctx : Context} {contexts : List Context} {s u : State}
  {r : Except Failure (List Json)}

/-- The items that the commands make of an element. -/
def turns (h : Host) (element : Json) (contexts : List Context) : Effect (List Json) :=
  slots <$> interpolateAll h (contexts.map fun ctx => (ctx, element))

/-- The list that the commands make of an element. -/
def turnList (h : Host) (element : Json) (contexts : List Context) : Effect (Option Json) :=
  (fun outs => some (.arr (slots outs))) <$>
    interpolateAll h (contexts.map fun ctx => (ctx, element))

theorem turns_nil : turns h element [] = pure [] := by
  simp [turns, interpolateAll, slots]

theorem turns_cons : turns h element (ctx :: contexts) =
    interpolateDocument h ctx element >>= fun v => (v :: ·) <$> turns h element contexts := by
  simp [turns, interpolateAll, interpolateDocument, slots]

theorem inTurn_iff : (turns h element contexts).outcome s = (r, u) ↔
    InTurn h element contexts s r u := by
  induction contexts generalizing s r u with
  | nil =>
    rw [turns_nil, outcome_pure]
    constructor
    · rintro ⟨⟩
      exact .nil s
    · rintro ⟨⟩
      rfl
  | cons ctx contexts ih =>
    rw [turns_cons, outcome_bind]
    rcases first : (interpolateDocument h ctx element).outcome s with ⟨_ | v, t⟩
    · constructor
      · rintro ⟨⟩
        exact .failed first
      · intro walk
        cases walk with
        | failed fails =>
          cases first.symm.trans fails
          rfl
        | cons succeeds => cases first.symm.trans succeeds
    · simp only [outcome_map]
      constructor
      · rintro ⟨⟩
        exact .cons first (ih.mp rfl)
      · intro walk
        cases walk with
        | failed fails => cases first.symm.trans fails
        | cons succeeds others =>
          cases first.symm.trans succeeds
          rw [ih.mpr others]

theorem turnList_iff {out : Except Failure (Option Json)} :
    (turnList h element contexts).outcome s = (out, u) ↔
      ∃ vs, InTurn h element contexts s vs u ∧ out = vs.map fun vs => some (.arr vs) := by
  have list : turnList h element contexts =
      (fun vs => some (.arr vs)) <$> turns h element contexts := by
    simp [turnList, turns]
  rw [list, outcome_map]
  simp only [← inTurn_iff]
  rcases (turns h element contexts).outcome s with ⟨vs, w⟩
  constructor
  · rintro ⟨⟩
    exact ⟨vs, rfl, rfl⟩
  · rintro ⟨_, ⟨⟩, rfl⟩
    rfl

theorem InTurn.length_eq (walk : InTurn h element contexts s r u) {vs : List Json}
    (done : r = .ok vs) : vs.length = contexts.length := by
  induction walk generalizing vs with
  | nil => cases done; rfl
  | failed => cases done
  | @cons ctx rest s t u v r first others ih =>
    cases r with
    | error => cases done
    | ok vs =>
      cases done
      rw [List.length_cons, List.length_cons, ih rfl]

/-- An element that stands for itself is repeated as it is. -/
theorem inTurn_verbatim {v : Json}
    (verbatim : ∀ ctx s, (interpolateDocument h ctx v).outcome s = (.ok v, s)) :
    InTurn h v contexts s (.ok (List.replicate contexts.length v)) s := by
  induction contexts with
  | nil => exact .nil s
  | cons ctx contexts ih => exact .cons (verbatim ctx s) ih

end Turns

/-- Values that hold no template: nothing, truth values and numbers. -/
inductive IsScalar : Json → Prop
  | null : IsScalar .null
  | bool (b : Bool) : IsScalar (.bool b)
  | int (n : Int) : IsScalar (.int n)
  | float (d : Double) : IsScalar (.float d)

theorem interpolateDocument_scalar {h : Host} {ctx : Context} {v : Json} (scalar : IsScalar v) :
    interpolateDocument h ctx v = pure v := by
  cases scalar <;> simp [interpolateDocument, interpolate, Template.ofJson, Template.expand]

/-- A context with the numbers from zero bound to `i`, as many as there are copies. -/
def numbered (ctx : Context) (k : Nat) : List Context :=
  (List.range k).map fun (j : Nat) => ctx.bind "i" (.int j)

theorem getElem?_numbered {ctx c : Context} {k j : Nat} (listed : (numbered ctx k)[j]? = some c) :
    j < k ∧ c = ctx.bind "i" (.int j) := by
  simp only [numbered, List.getElem?_map, Option.map_eq_some_iff, List.getElem?_eq_some_iff]
    at listed
  obtain ⟨i, ⟨below, here⟩, rfl⟩ := listed
  rw [List.length_range] at below
  rw [List.getElem_range] at here
  exact ⟨below, by rw [here]⟩

theorem Context.get?_bind (ctx : Context) (key name : String) (v : Json) :
    (ctx.bind key v).locals.get? name = if name = key then some v else ctx.locals.get? name := by
  by_cases same : name = key
  · rw [if_pos same, same]
    exact Named.get?_put_self ctx.locals key v
  · rw [if_neg same]
    exact Named.get?_put_of_ne ctx.locals v same

variable {h : Host} {ctx : Context} {fields desc : Fields} {name : String} {count element : Json}
  {s t : State} {r : Except Failure Json}

theorem Count.check_of_le {k : Nat} (within : k ≤ 100000) : check k = .ok k := by
  have small : ¬ limit < k := by
    unfold limit
    omega
  rw [check, if_neg small]

theorem Count.check_of_lt {k : Nat} (above : 100000 < k) :
    ∃ message, check k = .error (.malformed "$array" message) := by
  have great : limit < k := above
  exact ⟨_, by rw [check, if_pos great]; rfl⟩

/-- What the command does from the state in which the value of its count is known. -/
theorem outcome_array (found : Fields.command? fields = some (name, .obj desc))
    (known : h.commands.lookup name = some .array)
    (hc : Named.get? desc "count" = some count)
    (he : Named.get? desc "element" = some element)
    (counted : ((Count.ofJson count).value h.engine ctx).outcome s = (r, t)) :
    (interpolate h ctx (.obj fields)).outcome s =
      match r >>= Count.size >>= Count.check with
      | .error f => (.error f, t)
      | .ok k => (turnList h element (numbered ctx k)).outcome t := by
  rw [interpolate_array found known hc he, Count.resolve, bind_assoc, outcome_bind, counted]
  cases r with
  | error f => rfl
  | ok v =>
    simp only [outcome_bind, outcome_liftExcept]
    change _ = match Count.size v >>= Count.check with | .error f => _ | .ok k => _
    cases Count.size v >>= Count.check with
    | error f => rfl
    | ok k => simp [turnList, numbered, Function.comp_def]

/-- What the command comes to when its count came to a result and left a state. A count above the limit is
refused before any element; else the element is expanded as often as the count says, each time over what
the time before left and with its number bound. -/
structure Unrolled (h : Host) (ctx : Context) (fields : Fields) (element : Json) (s : State)
    (r : Except Failure Json) (t : State) : Prop where
  failed : ∀ f, r >>= Count.size = .error f →
    (interpolate h ctx (.obj fields)).outcome s = (.error f, t)
  refused : ∀ k, r >>= Count.size = .ok k → 100000 < k → ∃ message,
    (interpolate h ctx (.obj fields)).outcome s = (.error (.malformed "$array" message), t)
  unrolled : ∀ k, r >>= Count.size = .ok k → k ≤ 100000 → ∀ out u,
    (interpolate h ctx (.obj fields)).outcome s = (out, u) ↔
      ∃ vs, InTurn h element (numbered ctx k) t vs u ∧ out = vs.map fun vs => some (.arr vs)
  length : ∀ k u vs, InTurn h element (numbered ctx k) t (.ok vs) u → vs.length = k
  bound : ∀ (k j : Nat) (c : Context), (numbered ctx k)[j]? = some c → c.request = ctx.request ∧
    ∀ key, c.locals.get? key = if key = "i" then some (.int j) else ctx.locals.get? key
  scalar : IsScalar element → ∀ k, r >>= Count.size = .ok k → k ≤ 100000 →
    (interpolate h ctx (.obj fields)).outcome s =
        (.ok (some (.arr (List.replicate k element))), t) ∧
      InTurn h element (numbered ctx k) t (.ok (List.replicate k element)) t

theorem inTurn_scalar (scalar : IsScalar element) (k : Nat) (t : State) :
    InTurn h element (numbered ctx k) t (.ok (List.replicate k element)) t := by
  have length : (numbered ctx k).length = k := by simp [numbered]
  have copies : InTurn h element (numbered ctx k) t
      (.ok (List.replicate (numbered ctx k).length element)) t :=
    inTurn_verbatim fun ctx s => by rw [interpolateDocument_scalar scalar, outcome_pure]
  rwa [length] at copies

/-- The `$array` command evaluates its count once, in the context that it stands in, and then does what its
element does when it is written out as often. -/
theorem interpolate_array_unrolled (found : Fields.command? fields = some (name, .obj desc))
    (known : h.commands.lookup name = some .array)
    (hc : Named.get? desc "count" = some count)
    (he : Named.get? desc "element" = some element)
    (counted : ((Count.ofJson count).value h.engine ctx).outcome s = (r, t)) :
    Unrolled h ctx fields element s r t := by
  have whole := outcome_array found known hc he counted
  have unrolled : ∀ k, r >>= Count.size = .ok k → k ≤ 100000 → ∀ out u,
      (interpolate h ctx (.obj fields)).outcome s = (out, u) ↔
        ∃ vs, InTurn h element (numbered ctx k) t vs u ∧
          out = vs.map fun vs => some (.arr vs) := by
    intro k size within out u
    have checked : r >>= Count.size >>= Count.check = .ok k := by
      rw [size]
      exact Count.check_of_le within
    rw [whole, checked]
    exact turnList_iff
  constructor
  case failed =>
    intro f fails
    rw [whole, fails]
    rfl
  case refused =>
    intro k size above
    obtain ⟨message, refused⟩ := Count.check_of_lt above
    have checked : r >>= Count.size >>= Count.check = .error (.malformed "$array" message) := by
      rw [size]
      exact refused
    exact ⟨message, by rw [whole, checked]⟩
  case unrolled => exact unrolled
  case length =>
    intro k u vs walk
    rw [walk.length_eq rfl, numbered, List.length_map, List.length_range]
  case bound =>
    intro k j c listed
    obtain ⟨-, rfl⟩ := getElem?_numbered listed
    exact ⟨rfl, fun key => Context.get?_bind ctx "i" key (.int j)⟩
  case scalar =>
    intro scalar k size within
    have copies : InTurn h element (numbered ctx k) t (.ok (List.replicate k element)) t :=
      inTurn_scalar scalar k t
    exact ⟨(unrolled k size within _ t).mpr ⟨_, copies, rfl⟩, copies⟩

/-- An engine in which a name stands for what it is bound to. -/
def recalling : Host where
  engine :=
    { expression := fun code bindings =>
        { outcome := .ok (bindings.reverse.lookup code), binding := fun _ => none }
      script := fun _ _ => { outcome := .ok none, binding := fun _ => none } }
  file path := .error (.fileNotFound path)

/-- As many numbers as `n` says. -/
def numbersDesc : Fields := [("count", .str "n"), ("element", .str "$\x7bi\x7d")]

theorem interpolate_array_numbers :
    let outer : Context := { locals := [("i", .str "outer"), ("n", .int 2)] }
    (interpolate recalling outer (.obj [("$array", .obj numbersDesc)])).outcome {} =
      (.ok (some (.arr [.int 0, .int 1])),
        { journal := [.evaluated "i" [("i", .int 1), ("n", .int 2)],
            .evaluated "i" [("i", .int 0), ("n", .int 2)], .evaluated "n" outer.locals] }) := by
  intro outer
  have found : Fields.command? [("$array", .obj numbersDesc)] = some ("$array", .obj numbersDesc) := by
    rfl
  have known : recalling.commands.lookup "$array" = some .array := by rfl
  have counted : ((Count.ofJson (.str "n")).value recalling.engine outer).outcome {} =
      (.ok (.int 2), { journal := [.evaluated "n" outer.locals] }) := by rfl
  have all := interpolate_array_unrolled found known rfl rfl counted
  refine (all.unrolled 2 (by rfl) (by decide) _ _).mpr ⟨.ok [.int 0, .int 1], ?_, rfl⟩
  exact .cons (by rfl) (.cons (by rfl) (.nil _))

end RuleService
