import Mathlib
import RuleService.Service.Basic

namespace RuleService

/-- A method of a path, and what a definition holds under it. -/
structure Declaration where
  path : String
  method : String
  body : Json

/-- The declarations of a definition: those of its first path, then those of the next. -/
def Json.declarations : Json → List Declaration
  | .obj paths => paths.flatMap fun (path, methods) =>
      (methods.fields?.getD []).map fun (method, body) => ⟨path, method, body⟩
  | _ => []

/-- The names a method is known by, in lower case. -/
def Verb.names : List String :=
  ["get", "post", "put", "delete", "patch", "options", "head", "*", "all"]

/-- Whether what is declared under a method name is for requests of a method. -/
inductive Answers (name method : String) : Prop
  | any (every : foldName name = "*" ∨ foldName name = "all")
  | get (named : foldName name = "get") (reads : foldName method = "get" ∨ foldName method = "head")
  | same (named : foldName name ∈ ["post", "put", "delete", "patch", "options", "head"])
      (equal : foldName method = foldName name)

namespace Declaration

/-- Whether a declaration is for a request, and what its pattern binds. -/
structure Fits (d : Declaration) (method path : String) (params : Texts) : Prop where
  isPath : ∀ rest, d.path ≠ "$" ++ rest
  answers : Answers d.method method
  matched : (Pattern.ofText d.path).match? path = some params

/-- The values that a declaration gives for its rules: the items of a list, or one value. -/
def recipes (d : Declaration) : List Json :=
  match d.body with
  | .arr vs => vs
  | v => [v]

/-- Whether a route is made of a declaration: its rules are those of the declaration, in order. -/
structure Makes (d : Declaration) (route : Route) : Prop where
  path : route.path = d.path
  verb : Verb.ofName? d.method = some route.verb
  rules : List.Forall₂ (fun recipe rule => Rule.ofJson recipe = .ok rule) d.recipes route.rules

end Declaration

/-- The first of some declarations that fits a request. -/
inductive FirstFit (ds : List Declaration) (method path : String) (d : Declaration)
    (params : Texts) : Prop
  | intro {before after : List Declaration} (split : ds = before ++ d :: after)
      (passed : ∀ e ∈ before, ∀ other, ¬ e.Fits method path other)
      (fits : d.Fits method path params)

/-- The methods of a path that are known. -/
def Fields.known (methods : Fields) : Fields :=
  methods.filter fun (name, _) => Verb.names.contains (foldName name)

/-- The paths of a definition that do not begin with `$`, with the methods that are known. -/
def Fields.served (paths : Fields) : Fields :=
  (paths.filter fun (path, _) => path.toList.head? != some '$').map fun (path, methods) =>
    (path, match methods with | .obj methods => .obj (Fields.known methods) | v => v)

/-- A definition without what is passed over in loading it. -/
def Json.withoutSkipped : Json → Json
  | .obj paths => .obj (Fields.served paths)
  | v => v

theorem Verb.known_iff {name : String} :
    (∃ verb, Verb.ofName? name = some verb) ↔ Verb.names.contains (foldName name) = true := by
  unfold Verb.ofName?
  split <;> simp_all [Verb.names]

/-- A verb other than the one for every method goes by the name it is known by. -/
theorem Verb.ofName?_cases {name : String} {verb : Verb} (known : Verb.ofName? name = some verb) :
    (verb = .any ∧ (foldName name = "*" ∨ foldName name = "all")) ∨
    (verb = .get ∧ foldName name = "get") ∨
    ((verb ≠ .any ∧ verb ≠ .get) ∧ foldName verb.name = foldName name ∧
      foldName name ∈ ["post", "put", "delete", "patch", "options", "head"]) := by
  unfold Verb.ofName? at known
  split at known <;> cases known
  case h_1 eq => exact .inr (.inl ⟨rfl, eq⟩)
  case h_8 eq => exact .inl ⟨rfl, .inl eq⟩
  case h_9 eq => exact .inl ⟨rfl, .inr eq⟩
  all_goals
    rename_i eq
    refine .inr (.inr ⟨by decide, ?_, by simp [eq]⟩)
    rw [eq]
    cbv

theorem Verb.serves_eq {verb : Verb} (single : verb ≠ .any ∧ verb ≠ .get) (method : String) :
    verb.serves method = sameName method verb.name := by
  cases verb <;> simp_all [Verb.serves]

theorem Verb.serves_iff {name method : String} {verb : Verb}
    (known : Verb.ofName? name = some verb) : verb.serves method = true ↔ Answers name method := by
  have get : foldName "GET" = "get" := by cbv
  have head : foldName "HEAD" = "head" := by cbv
  obtain ⟨rfl, every⟩ | ⟨rfl, named⟩ | ⟨single, folded, named⟩ := Verb.ofName?_cases known
  · exact ⟨fun _ => .any every, fun _ => rfl⟩
  · constructor
    · intro serves
      exact .get named (by simpa [Verb.serves, sameName, get, head] using serves)
    · rintro (every | ⟨-, reads⟩ | ⟨other, -⟩)
      · simp [named] at every
      · simpa [Verb.serves, sameName, get, head] using reads
      · simp [named] at other
  · rw [Verb.serves_eq single, sameName, beq_iff_eq, folded]
    refine ⟨.same named, ?_⟩
    rintro (every | ⟨other, -⟩ | ⟨-, equal⟩)
    · rcases every with every | every <;> simp [every] at named
    · simp [other] at named
    · exact equal

theorem Answers.known {name method : String} (answers : Answers name method) :
    ∃ verb, Verb.ofName? name = some verb := by
  rw [Verb.known_iff]
  cases answers with
  | any every => rcases every with every | every <;> simp [Verb.names, every]
  | get named => simp [Verb.names, named]
  | same named =>
    simp only [Verb.names, List.contains_eq_mem, decide_eq_true_eq]
    simp only [List.mem_cons, List.not_mem_nil, or_false] at named ⊢
    tauto

/-- A path that begins with `$`. -/
theorem skipped_iff (path : String) :
    (path.toList.head? == some '$') = true ↔ ∃ rest, path = "$" ++ rest := by
  rw [beq_iff_eq]
  constructor
  · intro begins
    obtain ⟨rest, split⟩ : ∃ rest, path.toList = '$' :: rest := by
      cases chars : path.toList with
      | nil => simp [chars] at begins
      | cons c rest => exact ⟨rest, by simpa [chars] using begins⟩
    exact ⟨String.ofList rest, String.toList_injective (by simp [split])⟩
  · rintro ⟨rest, rfl⟩
    simp

variable {method path : String} {d e : Declaration} {ds : List Declaration} {params other : Texts}

theorem Declaration.Fits.params_eq (one : d.Fits method path params)
    (two : d.Fits method path other) : params = other :=
  Option.some.inj (one.matched.symm.trans two.matched)

theorem Declaration.Makes.unique {route route' : Route} (one : d.Makes route)
    (two : d.Makes route') : route = route' := by
  obtain ⟨path, verb, rules⟩ := route
  obtain ⟨path', verb', rules'⟩ := route'
  obtain rfl : path = path' := one.path.trans two.path.symm
  obtain rfl : verb = verb' := Option.some.inj (one.verb.symm.trans two.verb)
  have functional : Relator.RightUnique fun recipe rule => Rule.ofJson recipe = .ok rule :=
    fun _ _ _ h h' => Except.ok.inj (h.symm.trans h')
  obtain rfl : rules = rules' := functional.forall₂ one.rules two.rules
  rfl

theorem firstFit_nil : ¬ FirstFit [] method path d params := by
  rintro ⟨split, -, -⟩
  simp at split

theorem firstFit_cons_of_fits (fits : e.Fits method path other) :
    FirstFit (e :: ds) method path d params ↔ d = e ∧ params = other := by
  constructor
  · rintro ⟨split, passed, found⟩
    rename_i before after
    cases before with
    | nil =>
      obtain ⟨rfl, -⟩ := List.cons.inj split
      exact ⟨rfl, found.params_eq fits⟩
    | cons x before =>
      obtain ⟨rfl, -⟩ := List.cons.inj split
      exact absurd fits (passed e (by simp) other)
  · rintro ⟨rfl, rfl⟩
    exact .intro (List.nil_append _).symm (by simp) fits

theorem firstFit_cons_of_not (passed : ∀ other, ¬ e.Fits method path other) :
    FirstFit (e :: ds) method path d params ↔ FirstFit ds method path d params := by
  constructor
  · rintro ⟨split, earlier, found⟩
    rename_i before after
    cases before with
    | nil =>
      obtain ⟨rfl, -⟩ := List.cons.inj split
      exact absurd found (passed params)
    | cons x before =>
      obtain ⟨-, rfl⟩ := List.cons.inj split
      exact .intro rfl (fun y hy => earlier y (List.mem_cons_of_mem _ hy)) found
  · rintro ⟨rfl, earlier, found⟩
    refine .intro List.cons_append.symm (fun y hy => ?_) found
    rcases List.mem_cons.mp hy with rfl | hy
    · exact passed
    · exact earlier y hy

/-- The routes that some declarations are made into: some declarations are passed over, and each of the
others makes a route. -/
inductive Registered : List Declaration → List Route → Prop
  | nil : Registered [] []
  | skipped {d : Declaration} {ds : List Declaration} {routes : List Route}
      (unfit : ∀ method path params, ¬ d.Fits method path params) (rest : Registered ds routes) :
      Registered (d :: ds) routes
  | made {d : Declaration} {ds : List Declaration} {route : Route} {routes : List Route}
      (isPath : ∀ rest, d.path ≠ "$" ++ rest) (makes : d.Makes route)
      (rest : Registered ds routes) : Registered (d :: ds) (route :: routes)

theorem Registered.append {ds' : List Declaration} {routes routes' : List Route}
    (first : Registered ds routes) (second : Registered ds' routes') :
    Registered (ds ++ ds') (routes ++ routes') := by
  induction first with
  | nil => exact second
  | skipped unfit _ ih => exact .skipped unfit ih
  | made isPath makes _ ih => exact .made isPath makes ih

theorem loaded_bind_iff {ε α β : Type} {first : Except ε α} {next : α → Except ε β} {b : β} :
    (first >>= next) = .ok b ↔ ∃ a, first = .ok a ∧ next a = .ok b := by
  cases first <;> simp [bind, Except.bind]

theorem loaded_mapError_iff {ε ε' α : Type} {g : ε → ε'} {r : Except ε α} {a : α} :
    r.mapError g = .ok a ↔ r = .ok a := by
  cases r <;> simp [Except.mapError]

theorem rules_of_mapM {vs : List Json} {rules : List Rule}
    (read : vs.mapM Rule.ofJson = .ok rules) :
    List.Forall₂ (fun recipe rule => Rule.ofJson recipe = .ok rule) vs rules := by
  induction vs generalizing rules with
  | nil =>
    obtain rfl : [] = rules := Except.ok.inj read
    exact .nil
  | cons v vs ih =>
    rw [List.mapM_cons, loaded_bind_iff] at read
    obtain ⟨rule, hv, read⟩ := read
    obtain ⟨rest, hvs, read⟩ := loaded_bind_iff.mp read
    obtain rfl : rule :: rest = rules := Except.ok.inj read
    exact .cons hv (ih hvs)

theorem rules_of_recipes {d : Declaration} {rules : List Rule}
    (read : Route.rulesOf d.body = .ok rules) :
    List.Forall₂ (fun recipe rule => Rule.ofJson recipe = .ok rule) d.recipes rules := by
  have single (v : Json) (only : (fun rule => [rule]) <$> Rule.ofJson v = .ok rules) :
      List.Forall₂ (fun recipe rule => Rule.ofJson recipe = .ok rule) [v] rules := by
    rw [map_eq_pure_bind, loaded_bind_iff] at only
    obtain ⟨rule, hv, only⟩ := only
    obtain rfl : [rule] = rules := Except.ok.inj only
    exact .cons hv .nil
  obtain ⟨path, method, body⟩ := d
  cases body with
  | arr vs => exact rules_of_mapM read
  | _ => exact single _ read

/-- The declarations under a path make its routes. -/
theorem registered_of_methods {path : String} {methods : Fields} {routes : List Route}
    (isPath : ∀ rest, path ≠ "$" ++ rest) (read : Route.ofMethods path methods = .ok routes) :
    Registered (methods.map fun (method, body) => ⟨path, method, body⟩) routes := by
  induction methods generalizing routes with
  | nil =>
    obtain rfl : [] = routes := Except.ok.inj read
    exact .nil
  | cons field methods ih =>
    obtain ⟨name, body⟩ := field
    rw [Route.ofMethods] at read
    cases known : Verb.ofName? name with
    | none =>
      rw [known] at read
      refine .skipped (fun method _ _ fits => ?_) (ih read)
      obtain ⟨verb, found⟩ := fits.answers.known
      simp [known] at found
    | some verb =>
      simp only [known, loaded_bind_iff, loaded_mapError_iff] at read
      obtain ⟨rules, hr, rest, hm, read⟩ := read
      obtain rfl : ⟨path, verb, rules⟩ :: rest = routes := Except.ok.inj read
      exact .made isPath ⟨rfl, known, rules_of_recipes (d := ⟨path, name, body⟩) hr⟩ (ih hm)

/-- Declarations none of which fits any request make no routes. -/
theorem registered_none (unfit : ∀ d ∈ ds, ∀ method path params, ¬ d.Fits method path params) :
    Registered ds [] := by
  induction ds with
  | nil => exact .nil
  | cons d ds ih =>
    exact .skipped (unfit d (by simp)) (ih fun e he => unfit e (by simp [he]))

theorem declarations_cons (path : String) (methods : Json) (paths : Fields) :
    (Json.obj ((path, methods) :: paths)).declarations =
      ((methods.fields?.getD []).map fun (method, body) => ⟨path, method, body⟩) ++
        (Json.obj paths).declarations := by
  simp [Json.declarations]

/-- The declarations of a definition make its routes. -/
theorem registered_of_paths {paths : Fields} {routes : List Route}
    (read : Route.ofPaths paths = .ok routes) : Registered (Json.obj paths).declarations routes := by
  induction paths generalizing routes with
  | nil =>
    obtain rfl : [] = routes := Except.ok.inj read
    exact .nil
  | cons field paths ih =>
    obtain ⟨path, methods⟩ := field
    rw [declarations_cons]
    unfold Route.ofPaths at read
    split at read
    · next aside =>
      obtain ⟨rest, rfl⟩ := (skipped_iff path).mp aside
      have none : Registered ((methods.fields?.getD []).map fun (method, body) =>
          ⟨"$" ++ rest, method, body⟩) [] := by
        refine registered_none fun d listed _ _ _ fits => ?_
        obtain ⟨field, -, rfl⟩ := List.mem_map.mp listed
        exact fits.isPath rest rfl
      exact none.append (ih read)
    · next isPath =>
      have isPath (rest : String) : path ≠ "$" ++ rest := fun eq => isPath ((skipped_iff path).mpr ⟨rest, eq⟩)
      cases methods with
      | obj methods =>
        simp only [loaded_bind_iff] at read
        obtain ⟨own, ho, rest, hr, read⟩ := read
        obtain rfl : own ++ rest = routes := Except.ok.inj read
        exact (registered_of_methods isPath ho).append (ih hr)
      | _ => cases read

/-- What a route gives for a request. -/
def Route.answer? (method path : String) (route : Route) : Option (Route × Texts) :=
  if route.verb.serves method then
    ((Pattern.ofText route.path).match? path).map fun params => (route, params)
  else none

theorem Service.find_eq (service : Service) (method path : String) :
    service.find method path = service.routes.findSome? (Route.answer? method path) := by
  obtain ⟨routes⟩ := service
  simp only [Service.find, Service.patterns]
  induction routes with
  | nil => rfl
  | cons route routes ih =>
    rw [List.map_cons, List.zip_cons_cons, List.findSome?_cons, ← ih]
    cases serves : route.verb.serves method with
    | true => simp [serves, Route.answer?, List.findSome?_cons]
    | false => simp [serves, Route.answer?]

theorem Declaration.Makes.answer?_iff {route r : Route} (makes : d.Makes route)
    (isPath : ∀ rest, d.path ≠ "$" ++ rest) :
    route.answer? method path = some (r, params) ↔ r = route ∧ d.Fits method path params := by
  unfold Route.answer?
  rw [makes.path]
  have serves : route.verb.serves method = true ↔ Answers d.method method :=
    Verb.serves_iff makes.verb
  constructor
  · intro found
    split at found
    · next yes =>
      obtain ⟨bound, matched, eq⟩ := Option.map_eq_some_iff.mp found
      obtain ⟨rfl, rfl⟩ := Prod.mk.inj eq
      exact ⟨rfl, isPath, serves.mp yes, matched⟩
    · cases found
  · rintro ⟨rfl, fits⟩
    simp [serves.mpr fits.answers, fits.matched]

theorem Registered.find_iff {routes : List Route} (registered : Registered ds routes)
    {route : Route} :
    routes.findSome? (Route.answer? method path) = some (route, params) ↔
      ∃ d, FirstFit ds method path d params ∧ d.Makes route := by
  induction registered with
  | nil => simp [firstFit_nil]
  | skipped unfit _ ih => simp only [ih, firstFit_cons_of_not (unfit method path)]
  | @made d ds own routes isPath makes _ ih =>
    rw [List.findSome?_cons]
    cases ha : own.answer? method path with
    | some answer =>
      obtain ⟨r, bound⟩ := answer
      obtain ⟨rfl, fits⟩ := (makes.answer?_iff isPath).mp ha
      simp only [firstFit_cons_of_fits fits]
      constructor
      · intro eq
        obtain ⟨rfl, rfl⟩ := Prod.mk.inj (Option.some.inj eq)
        exact ⟨d, ⟨rfl, rfl⟩, makes⟩
      · rintro ⟨_, ⟨rfl, rfl⟩, makes'⟩
        rw [makes.unique makes']
    | none =>
      have passed (other : Texts) : ¬ d.Fits method path other := by
        intro fits
        rw [(makes.answer?_iff isPath).mpr ⟨rfl, fits⟩] at ha
        cases ha
      simp only [ih, firstFit_cons_of_not passed]

theorem Registered.find_none_iff {routes : List Route} (registered : Registered ds routes) :
    routes.findSome? (Route.answer? method path) = none ↔
      ∀ d ∈ ds, ∀ params, ¬ d.Fits method path params := by
  induction registered with
  | nil => simp
  | skipped unfit _ ih => simp [ih, unfit]
  | @made d ds own routes isPath makes _ ih =>
    have own_none : own.answer? method path = none ↔ ∀ params, ¬ d.Fits method path params := by
      constructor
      · intro none params fits
        rw [(makes.answer?_iff isPath).mpr ⟨rfl, fits⟩] at none
        cases none
      · intro unfit
        cases ha : own.answer? method path with
        | none => rfl
        | some answer => exact absurd ((makes.answer?_iff isPath).mp ha).2 (unfit answer.2)
    rw [List.findSome?_cons]
    cases ha : own.answer? method path with
    | some answer =>
      refine ⟨nofun, fun unfit => ?_⟩
      exact absurd ((makes.answer?_iff isPath).mp ha).2 (unfit d (by simp) answer.2)
    | none => simp only [ih, List.forall_mem_cons, own_none.mp ha, not_false_eq_true, implies_true, true_and]

theorem ofMethods_known (path : String) (methods : Fields) :
    Route.ofMethods path (Fields.known methods) = Route.ofMethods path methods := by
  unfold Fields.known
  induction methods with
  | nil => rfl
  | cons field methods ih =>
    obtain ⟨name, body⟩ := field
    cases known : Verb.ofName? name with
    | none =>
      have unknown : Verb.names.contains (foldName name) = false := by
        rw [Bool.eq_false_iff]
        intro listed
        obtain ⟨verb, found⟩ := Verb.known_iff.mpr listed
        simp [known] at found
      rw [List.filter_cons_of_neg (by simpa using unknown), ih, Route.ofMethods, known]
    | some verb =>
      rw [List.filter_cons_of_pos (by exact Verb.known_iff.mp ⟨verb, known⟩), Route.ofMethods,
        Route.ofMethods, known, ih]

theorem ofPaths_served (paths : Fields) :
    Route.ofPaths (Fields.served paths) = Route.ofPaths paths := by
  unfold Fields.served
  induction paths with
  | nil => rfl
  | cons field paths ih =>
    obtain ⟨path, methods⟩ := field
    rw [Route.ofPaths.eq_def (_ :: paths)]
    cases aside : path.toList.head? == some '$' with
    | true =>
      rw [List.filter_cons_of_neg (by simp [bne, aside]), ih]
      simp [aside]
    | false =>
      rw [List.filter_cons_of_pos (by simp [bne, aside]), List.map_cons, Route.ofPaths.eq_def]
      cases methods with
      | obj methods => simp only [aside, ofMethods_known, ih]
      | _ => simp only [aside, Bool.false_eq_true, if_false]

/-- A definition is loaded as it is without what is passed over. -/
theorem Service.ofJson_withoutSkipped (v : Json) : ofJson v.withoutSkipped = ofJson v := by
  cases v with
  | obj paths => simp only [Json.withoutSkipped, ofJson, ofPaths_served]
  | _ => rfl

/-- Finding a route, from the definition on. The route found for a request is the one made of the first
declaration that fits, with its rules, and the parameters are what its pattern binds; none is found just
if no declaration fits. Definitions that differ only in what is passed over find the same. -/
theorem Service.find_firstFit (v : Json) (service : Service) (loaded : Service.ofJson v = .ok service) :
    (∀ method path route params, service.find method path = some (route, params) ↔
      ∃ d, FirstFit v.declarations method path d params ∧ d.Makes route) ∧
    (∀ method path, service.find method path = none ↔
      ∀ d ∈ v.declarations, ∀ params, ¬ d.Fits method path params) ∧
    ∀ w : Json, w.withoutSkipped = v.withoutSkipped → Service.ofJson w = .ok service := by
  have registered : Registered v.declarations service.routes := by
    cases v with
    | obj paths =>
      rw [Service.ofJson, map_eq_pure_bind, loaded_bind_iff] at loaded
      obtain ⟨routes, read, eq⟩ := loaded
      obtain rfl : Service.mk routes = service := Except.ok.inj eq
      exact registered_of_paths read
    | _ => cases loaded
  refine ⟨fun method path route params => ?_, fun method path => ?_, fun w alike => ?_⟩
  · rw [Service.find_eq]
    exact registered.find_iff
  · rw [Service.find_eq]
    exact registered.find_none_iff
  · rw [← Service.ofJson_withoutSkipped, alike, Service.ofJson_withoutSkipped, loaded]

/-- Two patterns for the same paths, beside a key and a method that are passed over. -/
def overlapping : Json :=
  .obj
    [("$note", .null), ("/a/:x", .obj [("Get", .obj []), ("trace", .null), ("ALL", .arr [])]),
      ("/a/*", .obj [("post", .obj [])])]

/-- The service of these patterns. -/
def overlappingService : Service :=
  ⟨[⟨"/a/:x", .get, [⟨[], none, none, none⟩]⟩, ⟨"/a/:x", .any, []⟩,
    ⟨"/a/*", .post, [⟨[], none, none, none⟩]⟩]⟩

theorem Service.find_firstFit_overlapping :
    Service.ofJson overlapping = .ok overlappingService ∧
    (∃ route, overlappingService.find "HEAD" "/a/b" = some (route, [("x", "b")]) ∧
      ∃ d, FirstFit overlapping.declarations "HEAD" "/a/b" d [("x", "b")] ∧ d.Makes route) ∧
    (∃ route, overlappingService.find "POST" "/a/b" = some (route, [("x", "b")]) ∧
      route.verb = .any) ∧
    (∃ route, overlappingService.find "POST" "/a/b/c" = some (route, [("0", "b/c")]) ∧
      route.path = "/a/*") ∧
    (∀ d ∈ overlapping.declarations, ∀ params, ¬ d.Fits "GET" "/a/b/c" params) ∧
    Service.ofJson overlapping.withoutSkipped = .ok overlappingService := by
  have loaded : Service.ofJson overlapping = .ok overlappingService := by cbv
  have head : overlappingService.find "HEAD" "/a/b" =
      some (⟨"/a/:x", .get, [⟨[], none, none, none⟩]⟩, [("x", "b")]) := by cbv
  have none : overlappingService.find "GET" "/a/b/c" = none := by cbv
  have exact := Service.find_firstFit overlapping overlappingService loaded
  exact ⟨loaded, ⟨_, head, (exact.1 _ _ _ _).mp head⟩, ⟨⟨"/a/:x", .any, []⟩, by cbv, rfl⟩,
    ⟨⟨"/a/*", .post, [⟨[], Option.none, Option.none, Option.none⟩]⟩, by cbv, rfl⟩,
    (exact.2.1 _ _).mp none, exact.2.2 _ (by cbv)⟩

end RuleService
