import RuleService.Http.Server
import RuleService.Proofs.Routing
import RuleService.Proofs.Sending

namespace RuleService

/-- A fault of a list of things: that of the first thing that has one. -/
inductive First {α ε : Type} (fault : α → ε → Prop) (as : List α) (e : ε) : Prop
  | intro {before after : List α} {a : α} (split : as = before ++ a :: after)
      (sound : ∀ b ∈ before, ∀ e, ¬ fault b e) (bad : fault a e)

section Firsts

variable {α β ε : Type} {fault : α → ε → Prop} {a : α} {as : List α} {e : ε}

theorem first_nil : ¬ First fault [] e := by
  rintro ⟨split, -, -⟩
  simp at split

theorem first_cons_iff :
    First fault (a :: as) e ↔ fault a e ∨ (∀ e, ¬ fault a e) ∧ First fault as e := by
  constructor
  · rintro ⟨split, sound, bad⟩
    rename_i before after b
    cases before with
    | nil =>
      obtain ⟨rfl, -⟩ := List.cons.inj split
      exact .inl bad
    | cons c before =>
      obtain ⟨rfl, rfl⟩ := List.cons.inj split
      exact .inr ⟨sound a (by simp), .intro rfl (fun b hb => sound b (by simp [hb])) bad⟩
  · rintro (bad | ⟨none, rfl, sound, bad⟩)
    · exact .intro (List.nil_append _).symm (by simp) bad
    · refine .intro List.cons_append.symm (fun b hb => ?_) bad
      rcases List.mem_cons.mp hb with rfl | hb
      · exact none
      · exact sound b hb

theorem not_first_iff : (∀ e, ¬ First fault as e) ↔ ∀ a ∈ as, ∀ e, ¬ fault a e := by
  induction as with
  | nil => simp [first_nil]
  | cons a as ih =>
    simp only [first_cons_iff, List.forall_mem_cons, ← ih]
    constructor
    · intro none
      have own : ∀ e, ¬ fault a e := fun e bad => none e (.inl bad)
      exact ⟨own, fun e first => none e (.inr ⟨own, first⟩)⟩
    · rintro ⟨own, rest⟩ e (bad | ⟨-, first⟩)
      · exact own e bad
      · exact rest e first

theorem loaded_bind_error_iff {first : Except ε α} {next : α → Except ε β} :
    (first >>= next) = .error e ↔ first = .error e ∨ ∃ a, first = .ok a ∧ next a = .error e := by
  cases first <;> simp [bind, Except.bind]

theorem loaded_mapError_error_iff {ε' : Type} {g : ε' → ε} {r : Except ε' α} :
    r.mapError g = .error e ↔ ∃ e', r = .error e' ∧ g e' = e := by
  cases r <;> simp [Except.mapError]

theorem loaded_iff {r : Except ε α} : (∃ a, r = .ok a) ↔ ∀ e, r ≠ .error e := by
  cases r <;> simp

/-- Of two things that are loaded one after the other, the second fails only if the first does not. -/
theorem loaded_both_error_iff {γ : Type} {first : Except ε α} {second : Except ε β}
    {both : α → β → γ} : (first >>= fun a => second >>= fun b => pure (both a b)) = .error e ↔
      first = .error e ∨ (∀ e, ¬ first = .error e) ∧ second = .error e := by
  cases first <;> cases second <;> simp [bind, Except.bind, pure, Except.pure]

/-- Things that are loaded one after the other come to the first fault. -/
theorem mapM_error_iff {load : α → Except ε β} (faults : ∀ a e, load a = .error e ↔ fault a e) :
    as.mapM load = .error e ↔ First fault as e := by
  induction as with
  | nil => exact ⟨nofun, fun first => absurd first first_nil⟩
  | cons a as ih =>
    rw [List.mapM_cons, loaded_both_error_iff, first_cons_iff, ih]
    simp only [faults]

end Firsts

/-- What a field may hold that is for statements, and the script that it gives. -/
inductive HoldsScript : Option Json → Option Script → Prop
  | absent : HoldsScript none none
  | null : HoldsScript (some .null) none
  | statement (code : String) : HoldsScript (some (.str code)) (some ⟨[.str code]⟩)
  | list (items : List Json) : HoldsScript (some (.arr items)) (some ⟨items⟩)

/-- What a field for a condition holds, and the code that it gives: text as it is, other values as they
are printed. -/
inductive HoldsCondition : Option Json → Option String → Prop
  | absent : HoldsCondition none none
  | null : HoldsCondition (some .null) none
  | code (text : String) : HoldsCondition (some (.str text)) (some text)
  | other {v : Json} (notNull : v ≠ .null) (noText : ∀ text, v ≠ .str text) :
      HoldsCondition (some v) (some v.render)

/-- Whether a rule is that of a value: it keeps the value as a whole, and its template is the value without
the fields for code. -/
structure Rule.IsOf (rule : Rule) (v : Json) : Prop where
  definition : v = .obj rule.definition
  condition : HoldsCondition (Named.get? rule.definition "condition") rule.condition
  before : HoldsScript (Named.get? rule.definition "preScript") rule.before
  after : HoldsScript (Named.get? rule.definition "postScript") rule.after
  template : rule.template = .obj (rule.definition.filter fun field =>
    field.1 ≠ "condition" ∧ field.1 ≠ "preScript" ∧ field.1 ≠ "postScript")

/-- Why a value is no rule. -/
inductive Json.RuleFaulty : Json → RuleFault → Prop
  | notAnObject {v : Json} (noFields : ∀ fields, v ≠ .obj fields) : v.RuleFaulty .notAnObject
  | before {fields : Fields} (none : ∀ script, ¬ HoldsScript (Named.get? fields "preScript") script) :
      (Json.obj fields).RuleFaulty (.badScript "preScript")
  | after {fields : Fields} {script : Option Script}
      (first : HoldsScript (Named.get? fields "preScript") script)
      (none : ∀ script, ¬ HoldsScript (Named.get? fields "postScript") script) :
      (Json.obj fields).RuleFaulty (.badScript "postScript")

namespace Rule

theorem scriptOf_ok_iff {fields : Fields} {name : String} {script : Option Script} :
    scriptOf fields name = .ok script ↔ HoldsScript (Named.get? fields name) script := by
  unfold scriptOf
  generalize Named.get? fields name = field
  constructor
  · intro read
    rcases field with _ | v
    · cases read
      exact .absent
    cases v with
    | null =>
      cases read
      exact .null
    | str code =>
      cases read
      exact .statement code
    | arr items =>
      cases read
      exact .list items
    | _ => cases read
  · rintro (_ | _ | _ | _) <;> rfl

/-- A field for statements fails in one way only. -/
theorem scriptOf_cases (fields : Fields) (name : String) :
    (∃ script, scriptOf fields name = .ok script) ∨ scriptOf fields name = .error (.badScript name) := by
  unfold scriptOf
  split
  · exact .inl ⟨none, rfl⟩
  · exact .inl ⟨none, rfl⟩
  · split
    · exact .inl ⟨_, rfl⟩
    · exact .inr rfl

theorem scriptOf_error_iff {fields : Fields} {name : String} {why : RuleFault} :
    scriptOf fields name = .error why ↔
      (∀ script, ¬ HoldsScript (Named.get? fields name) script) ∧ why = .badScript name := by
  simp only [← scriptOf_ok_iff]
  obtain ⟨script, read⟩ | failed := scriptOf_cases fields name
  · simp [read]
  · simp [failed, eq_comm]

theorem conditionOf_eq_iff {v : Option Json} {code : Option String} :
    conditionOf v = code ↔ HoldsCondition v code := by
  constructor
  · rintro rfl
    rcases v with _ | v
    · exact .absent
    cases v with
    | null => exact .null
    | str text => exact .code text
    | _ => exact .other (by simp) (by simp)
  · intro holds
    cases holds with
    | absent | null | code => rfl
    | @other v notNull noText =>
      cases v with
      | null => exact absurd rfl notNull
      | str text => exact absurd rfl (noText text)
      | _ => rfl

theorem template_eq (rule : Rule) : rule.template = .obj (rule.definition.filter fun field =>
    field.1 ≠ "condition" ∧ field.1 ≠ "preScript" ∧ field.1 ≠ "postScript") := by
  simp [template, codeFields]

theorem ofJson_ok_iff {v : Json} {rule : Rule} : Rule.ofJson v = .ok rule ↔ rule.IsOf v := by
  constructor
  · intro read
    cases v with
    | obj definition =>
      simp only [Rule.ofJson, loaded_bind_iff, scriptOf_ok_iff] at read
      obtain ⟨before, hb, after, ha, eq⟩ := read
      obtain rfl := Except.ok.inj eq
      exact ⟨rfl, conditionOf_eq_iff.mp rfl, hb, ha, template_eq _⟩
    | _ => cases read
  · rintro ⟨rfl, condition, before, after, -⟩
    simp only [Rule.ofJson, loaded_bind_iff]
    exact ⟨_, scriptOf_ok_iff.mpr before, _, scriptOf_ok_iff.mpr after,
      by rw [conditionOf_eq_iff.mpr condition]; rfl⟩

theorem ofJson_error_iff {v : Json} {why : RuleFault} :
    Rule.ofJson v = .error why ↔ v.RuleFaulty why := by
  constructor
  · intro failed
    cases v with
    | obj fields =>
      simp only [Rule.ofJson, loaded_bind_error_iff, scriptOf_error_iff, scriptOf_ok_iff] at failed
      obtain ⟨none, rfl⟩ | ⟨script, first, ⟨none, rfl⟩ | ⟨_, -, ⟨⟩⟩⟩ := failed
      · exact .before none
      · exact .after first none
    | _ =>
      cases failed
      exact .notAnObject (by simp)
  · intro faulty
    cases faulty with
    | @notAnObject v noFields =>
      cases v with
      | obj fields => exact absurd rfl (noFields fields)
      | _ => rfl
    | before none => exact loaded_bind_error_iff.mpr (.inl (scriptOf_error_iff.mpr ⟨none, rfl⟩))
    | after first none =>
      refine loaded_bind_error_iff.mpr (.inr ⟨_, scriptOf_ok_iff.mpr first, ?_⟩)
      exact loaded_bind_error_iff.mpr (.inl (scriptOf_error_iff.mpr ⟨none, rfl⟩))

end Rule

/-- Whether a route is that of a declaration: it has all rules that are declared, in order. -/
structure Route.IsOf (route : Route) (d : Declaration) : Prop where
  path : route.path = d.path
  verb : Verb.ofName? d.method = some route.verb
  rules : List.Forall₂ (fun recipe rule => Rule.IsOf rule recipe) d.recipes route.rules

/-- The declarations under one path. -/
def Fields.declarations (path : String) (methods : Fields) : List Declaration :=
  methods.map fun (method, body) => ⟨path, method, body⟩

/-- What is wrong with a declaration of a known method: the first of its values that is no rule. -/
inductive Declaration.Faulty (d : Declaration) : ServiceFault → Prop
  | intro {verb : Verb} {why : RuleFault} (known : Verb.ofName? d.method = some verb)
      (first : First Json.RuleFaulty d.recipes why) : d.Faulty (.invalidRule d.path verb why)

/-- What is wrong with a path that does not begin with `$`: its methods are not in an object, or the first
faulty declaration among them. -/
inductive PathFaulty : String × Json → ServiceFault → Prop
  | noMethods {path : String} {v : Json} (isPath : ∀ rest, path ≠ "$" ++ rest)
      (noFields : ∀ methods, v ≠ .obj methods) : PathFaulty (path, v) (.invalidRoute path)
  | declaration {path : String} {methods : Fields} {f : ServiceFault}
      (isPath : ∀ rest, path ≠ "$" ++ rest)
      (first : First Declaration.Faulty (methods.declarations path) f) :
      PathFaulty (path, .obj methods) f

/-- What is wrong with a definition: it is no object, or its first faulty path is. -/
inductive Json.ServiceFaulty : Json → ServiceFault → Prop
  | notAnObject {v : Json} (noFields : ∀ paths, v ≠ .obj paths) : v.ServiceFaulty .notAnObject
  | path {paths : Fields} {f : ServiceFault} (first : First PathFaulty paths f) :
      (Json.obj paths).ServiceFaulty f

/-- Whether a value is a rule: an object whose two scripts are absent, null, a text or a list. -/
def Json.IsRule (v : Json) : Prop :=
  ∃ fields, v = .obj fields ∧
    ∀ name ∈ ["preScript", "postScript"], ∃ script, HoldsScript (Named.get? fields name) script

/-- Whether a definition is sound: an object, in which each path that does not begin with `$` holds an
object, and what stands there under a known method is a rule or a list of rules. -/
def Json.IsService (v : Json) : Prop :=
  ∃ paths, v = .obj paths ∧
    ∀ path methods, (path, methods) ∈ paths → (∀ rest, path ≠ "$" ++ rest) →
      ∃ fields, methods = .obj fields ∧
        ∀ d ∈ Fields.declarations path fields, foldName d.method ∈ Verb.names →
          ∀ recipe ∈ d.recipes, recipe.IsRule

theorem Declaration.rulesOf_eq (d : Declaration) : Route.rulesOf d.body = d.recipes.mapM Rule.ofJson := by
  obtain ⟨path, method, body⟩ := d
  cases body with
  | arr vs => rfl
  | _ => simp [Route.rulesOf, Declaration.recipes]

namespace Route

theorem rulesOf_error_iff {d : Declaration} {why : RuleFault} :
    Route.rulesOf d.body = .error why ↔ First Json.RuleFaulty d.recipes why := by
  rw [d.rulesOf_eq]
  exact mapM_error_iff fun v why => Rule.ofJson_error_iff

theorem faulty_iff {d : Declaration} {verb : Verb} (known : Verb.ofName? d.method = some verb)
    {f : ServiceFault} :
    d.Faulty f ↔ (Route.rulesOf d.body).mapError (.invalidRule d.path verb) = .error f := by
  simp only [loaded_mapError_error_iff, rulesOf_error_iff]
  constructor
  · rintro ⟨known', first⟩
    cases known.symm.trans known'
    exact ⟨_, first, rfl⟩
  · rintro ⟨why, first, rfl⟩
    exact ⟨known, first⟩

theorem ofMethods_error_iff {path : String} {methods : Fields} {f : ServiceFault} :
    ofMethods path methods = .error f ↔ First Declaration.Faulty (methods.declarations path) f := by
  induction methods with
  | nil => exact ⟨nofun, fun first => absurd first first_nil⟩
  | cons field methods ih =>
    obtain ⟨name, body⟩ := field
    rw [ofMethods, Fields.declarations, List.map_cons, first_cons_iff, ← Fields.declarations, ← ih]
    cases known : Verb.ofName? name with
    | none =>
      have sound : ∀ f, ¬ Declaration.Faulty ⟨path, name, body⟩ f := by
        rintro f ⟨known', -⟩
        cases known.symm.trans known'
      simp only [sound, not_false_eq_true, implies_true, true_and, false_or]
    | some verb =>
      have faulty {f : ServiceFault} := faulty_iff (d := ⟨path, name, body⟩) (f := f) known
      simp only [faulty]
      exact loaded_both_error_iff

theorem pathFaulty_of_methods {path : String} {methods : Fields}
    (isPath : ∀ rest, path ≠ "$" ++ rest) (f : ServiceFault) :
    PathFaulty (path, .obj methods) f ↔ ofMethods path methods = .error f := by
  rw [ofMethods_error_iff]
  constructor
  · rintro (⟨-, noFields⟩ | ⟨-, first⟩)
    · exact absurd rfl (noFields methods)
    · exact first
  · exact .declaration isPath

theorem pathFaulty_of_noMethods {path : String} {v : Json} (isPath : ∀ rest, path ≠ "$" ++ rest)
    (noFields : ∀ methods, v ≠ .obj methods) (f : ServiceFault) :
    PathFaulty (path, v) f ↔ f = .invalidRoute path := by
  constructor
  · rintro (_ | _)
    · rfl
    · exact absurd rfl (noFields _)
  · rintro rfl
    exact .noMethods isPath noFields

theorem ofPaths_error_iff {paths : Fields} {f : ServiceFault} :
    ofPaths paths = .error f ↔ First PathFaulty paths f := by
  induction paths with
  | nil => exact ⟨nofun, fun first => absurd first first_nil⟩
  | cons field paths ih =>
    obtain ⟨path, methods⟩ := field
    rw [ofPaths.eq_def, first_cons_iff, ← ih]
    dsimp only
    cases aside : path.toList.head? == some '$' with
    | true =>
      obtain ⟨rest, rfl⟩ := (skipped_iff path).mp aside
      have sound : ∀ f, ¬ PathFaulty ("$" ++ rest, methods) f := by
        rintro f (⟨isPath, -⟩ | ⟨isPath, -⟩) <;> exact isPath rest rfl
      simp [sound]
    | false =>
      have isPath : ∀ rest, path ≠ "$" ++ rest := by
        intro rest eq
        simp [(skipped_iff path).mpr ⟨rest, eq⟩] at aside
      cases methods with
      | obj methods =>
        simp only [pathFaulty_of_methods isPath]
        exact loaded_both_error_iff
      | _ => simp [pathFaulty_of_noMethods isPath, eq_comm]

end Route

namespace Service

theorem ofJson_error_iff {v : Json} {f : ServiceFault} :
    Service.ofJson v = .error f ↔ v.ServiceFaulty f := by
  constructor
  · intro failed
    cases v with
    | obj paths =>
      rw [Service.ofJson, map_eq_pure_bind] at failed
      obtain failed | ⟨_, -, ⟨⟩⟩ := loaded_bind_error_iff.mp failed
      exact .path (Route.ofPaths_error_iff.mp failed)
    | _ =>
      cases failed
      exact .notAnObject (by simp)
  · intro faulty
    cases faulty with
    | notAnObject noFields =>
      cases v with
      | obj paths => exact absurd rfl (noFields paths)
      | _ => rfl
    | path first =>
      rw [Service.ofJson, map_eq_pure_bind]
      exact loaded_bind_error_iff.mpr (.inl (Route.ofPaths_error_iff.mpr first))

end Service

theorem Json.isRule_iff {v : Json} : v.IsRule ↔ ∀ why, ¬ v.RuleFaulty why := by
  constructor
  · rintro ⟨fields, rfl, scripts⟩ why faulty
    obtain ⟨before, hb⟩ := scripts "preScript" (by simp)
    obtain ⟨after, ha⟩ := scripts "postScript" (by simp)
    cases faulty with
    | notAnObject noFields => exact noFields fields rfl
    | before none => exact none before hb
    | after first none => exact none after ha
  · intro sound
    obtain ⟨rule, read⟩ := loaded_iff.mpr fun why failed => sound why (Rule.ofJson_error_iff.mp failed)
    obtain ⟨definition, -, before, after, -⟩ := Rule.ofJson_ok_iff.mp read
    refine ⟨rule.definition, definition, ?_⟩
    simp only [List.forall_mem_cons]
    exact ⟨⟨_, before⟩, ⟨_, after⟩, nofun⟩

theorem Declaration.sound_iff {d : Declaration} : (∀ f, ¬ d.Faulty f) ↔
    (foldName d.method ∈ Verb.names → ∀ recipe ∈ d.recipes, recipe.IsRule) := by
  have known_iff : foldName d.method ∈ Verb.names ↔ ∃ verb, Verb.ofName? d.method = some verb := by
    rw [Verb.known_iff, List.contains_iff_mem]
  simp only [known_iff, Json.isRule_iff, ← not_first_iff]
  constructor
  · rintro sound ⟨verb, known⟩ why first
    exact sound _ ⟨known, first⟩
  · rintro sound f ⟨known, first⟩
    exact sound ⟨_, known⟩ _ first

theorem pathSound_iff {path : String} {v : Json} : (∀ f, ¬ PathFaulty (path, v) f) ↔
    ((∀ rest, path ≠ "$" ++ rest) → ∃ methods, v = .obj methods ∧
      ∀ d ∈ Fields.declarations path methods, foldName d.method ∈ Verb.names →
        ∀ recipe ∈ d.recipes, recipe.IsRule) := by
  simp only [← Declaration.sound_iff, ← not_first_iff]
  constructor
  · intro sound isPath
    cases v with
    | obj methods => exact ⟨methods, rfl, fun f first => sound f (.declaration isPath first)⟩
    | _ => exact absurd (.noMethods isPath (by simp)) (sound _)
  · rintro sound f (⟨isPath, noFields⟩ | ⟨isPath, first⟩)
    · obtain ⟨methods, eq, -⟩ := sound isPath
      exact noFields methods eq
    · obtain ⟨methods, eq, none⟩ := sound isPath
      cases eq
      exact none f first

theorem Json.isService_iff {v : Json} : v.IsService ↔ ∀ f, ¬ v.ServiceFaulty f := by
  have paths_iff (paths : Fields) : (∀ f, ¬ First PathFaulty paths f) ↔
      ∀ path methods, (path, methods) ∈ paths → ∀ f, ¬ PathFaulty (path, methods) f := by
    rw [not_first_iff, Prod.forall]
  simp only [Json.IsService, ← pathSound_iff, ← paths_iff]
  constructor
  · rintro ⟨paths, rfl, sound⟩ f (noFields | first)
    · exact noFields paths rfl
    · exact sound f first
  · intro sound
    cases v with
    | obj paths => exact ⟨paths, rfl, fun f first => sound f (.path first)⟩
    | _ => exact absurd (.notAnObject (by simp)) (sound _)

theorem made_of_methods {path : String} {methods : Fields} {routes : List Route}
    (read : Route.ofMethods path methods = .ok routes) :
    List.Forall₂ Declaration.Makes ((Fields.known methods).declarations path) routes := by
  induction methods generalizing routes with
  | nil =>
    obtain rfl : [] = routes := Except.ok.inj read
    exact .nil
  | cons field methods ih =>
    obtain ⟨name, body⟩ := field
    rw [Route.ofMethods] at read
    cases known : Verb.ofName? name with
    | none =>
      have unknown : ¬ Verb.names.contains (foldName name) = true := by
        rw [← Verb.known_iff]
        simp [known]
      rw [known] at read
      rw [Fields.known, List.filter_cons_of_neg (by exact unknown)]
      exact ih read
    | some verb =>
      have listed : Verb.names.contains (foldName name) = true := Verb.known_iff.mp ⟨verb, known⟩
      simp only [known, loaded_bind_iff, loaded_mapError_iff] at read
      obtain ⟨rules, own, rest, others, eq⟩ := read
      obtain rfl : ⟨path, verb, rules⟩ :: rest = routes := Except.ok.inj eq
      rw [Fields.known, List.filter_cons_of_pos (by exact listed)]
      exact .cons ⟨rfl, known, rules_of_recipes (d := ⟨path, name, body⟩) own⟩ (ih others)

theorem made_of_paths {paths : Fields} {routes : List Route} (read : Route.ofPaths paths = .ok routes) :
    List.Forall₂ Declaration.Makes (Json.obj (Fields.served paths)).declarations routes := by
  induction paths generalizing routes with
  | nil =>
    obtain rfl : [] = routes := Except.ok.inj read
    exact .nil
  | cons field paths ih =>
    obtain ⟨path, methods⟩ := field
    unfold Route.ofPaths at read
    split at read
    · next aside =>
      have skipped : Fields.served ((path, methods) :: paths) = Fields.served paths := by
        rw [Fields.served, List.filter_cons_of_neg (by simp [bne, aside]), Fields.served]
      rw [skipped]
      exact ih read
    · next isPath =>
      cases methods with
      | obj methods =>
        have split : Fields.served ((path, .obj methods) :: paths) =
            (path, .obj (Fields.known methods)) :: Fields.served paths := by
          rw [Fields.served, List.filter_cons_of_pos (by simp [bne, isPath]), Fields.served]
          rfl
        simp only [loaded_bind_iff] at read
        obtain ⟨own, first, rest, others, eq⟩ := read
        obtain rfl : own ++ rest = routes := Except.ok.inj eq
        rw [split, declarations_cons]
        exact List.rel_append (made_of_methods first) (ih others)
      | _ => cases read

theorem Service.made {v : Json} {service : Service} (loaded : Service.ofJson v = .ok service) :
    List.Forall₂ Declaration.Makes v.withoutSkipped.declarations service.routes := by
  cases v with
  | obj paths =>
    rw [Service.ofJson, map_eq_pure_bind, loaded_bind_iff] at loaded
    obtain ⟨routes, read, eq⟩ := loaded
    obtain rfl : Service.mk routes = service := Except.ok.inj eq
    exact made_of_paths read
  | _ => cases loaded

/-- Loading a definition is all or nothing. It is loaded just if it is sound, and then it has a route for
each declaration that is not passed over, in order. Otherwise the first fault in the order of the
definition is told; what is passed over has no influence, and a reload that comes to a fault keeps the
active routes. -/
structure AllOrNothing (v : Json) : Prop where
  sound : (∃ service, Service.ofJson v = .ok service) ↔ v.IsService
  routes : ∀ service, Service.ofJson v = .ok service →
    List.Forall₂ (fun d route => Route.IsOf route d) v.withoutSkipped.declarations service.routes
  faulty : ∀ f, Service.ofJson v = .error f ↔ v.ServiceFaulty f
  skipped : ∀ w : Json, w.withoutSkipped = v.withoutSkipped → Service.ofJson w = Service.ofJson v
  reload : ∀ (f : ServiceFault) (setup : Http.Setup) (server : Http.Server) load, v.ServiceFaulty f →
    setup.reloader = some load → load server.reloads = Service.ofJson v →
    server.reload setup = (.error f.message, { server with reloads := server.reloads + 1 })

/-- A definition is loaded with all its declarations, or it is not loaded and its first fault is told. -/
theorem Service.ofJson_all_or_nothing (v : Json) : AllOrNothing v where
  sound := by
    rw [loaded_iff, Json.isService_iff]
    exact forall_congr' fun f => not_congr Service.ofJson_error_iff
  routes service loaded := by
    refine (Service.made loaded).imp fun d route makes => ⟨makes.path, makes.verb, ?_⟩
    exact makes.rules.imp fun recipe rule => Rule.ofJson_ok_iff.mp
  faulty f := Service.ofJson_error_iff
  skipped w alike := by rw [← Service.ofJson_withoutSkipped, alike, Service.ofJson_withoutSkipped]
  reload f setup server load faulty configured found := by
    have failed := Service.ofJson_error_iff.mpr faulty
    simp only [Http.Server.reload, configured, found, failed]

/-- A definition with a fault in a rule and another one after it, beside two that do not count. -/
def flawed : Json :=
  .obj
    [("$note", .null),
      ("/a", .obj [("trace", .null), ("Get", .arr [.obj [], .obj [("postScript", .int 1)]])]),
      ("/b", .null)]

theorem Service.ofJson_all_or_nothing_flawed :
    let f : ServiceFault := .invalidRule "/a" .get (.badScript "postScript")
    let setup : Http.Setup := { host := bareHost, reloader := some fun _ => Service.ofJson flawed }
    flawed.ServiceFaulty f ∧ ¬ flawed.IsService ∧
    Http.Server.reload { service := overlappingService } setup =
      (.error "route /a GET: `postScript` must be a statement or a list of statements",
        { service := overlappingService, reloads := 1 }) ∧
    overlapping.IsService ∧
    List.Forall₂ (fun d route => Route.IsOf route d) overlapping.withoutSkipped.declarations
      overlappingService.routes := by
  intro f setup
  have failed : Service.ofJson flawed = .error f := by cbv
  have loaded : Service.ofJson overlapping = .ok overlappingService := by cbv
  have nothing := Service.ofJson_all_or_nothing flawed
  have all := Service.ofJson_all_or_nothing overlapping
  have faulty := (nothing.faulty f).mp failed
  refine ⟨faulty, fun sound => ?_, ?_, all.sound.mp ⟨_, loaded⟩, all.routes _ loaded⟩
  · obtain ⟨service, loaded⟩ := nothing.sound.mpr sound
    cases loaded.symm.trans failed
  · exact nothing.reload f setup _ _ faulty rfl rfl

end RuleService
