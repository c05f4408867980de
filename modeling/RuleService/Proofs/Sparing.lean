import RuleService.Proofs.Keeping

namespace RuleService.Snippet

/-- Whether a link goes to a part and calls nothing. -/
def Link.selects : Link → Bool
  | .method .. => false
  | _ => true

/-- What a statement leaves declared. -/
def Stmt.declares : Stmt → List String
  | .declare _ _ name _ => [name]
  | _ => []

/-- Whether a change may go to an expression: it is no variable of these names. -/
def Expr.isOpen (names : List String) : Expr → Bool
  | .var name => !names.contains name
  | _ => true

/-- What an assignment to an expression changes. -/
def Expr.root : Expr → Expr
  | .chain root _ => root
  | e => e

mutual

/-- Whether an expression only reads the variables of these names, and declares nothing: it calls no
function on one of them, captures none, and hands none to a function that could change it. -/
def Expr.spares (names : List String) : Expr → Bool
  | .interpolated parts => exprsSpare names parts
  | .array items => exprsSpare names items
  | .map entries => entriesSpare names entries
  | .call path _ args =>
    exprsSpare names args && (!path.isEmpty || args.head?.all (·.isOpen names))
  | .unary _ e => e.spares names
  | .binary _ l r | .and l r | .or l r | .coalesce l r => l.spares names && r.spares names
  | .chain root links =>
    root.spares names && linksSpare names links && (root.isOpen names || links.all Link.selects)
  | .closure _ captures _ => captures.all (!names.contains ·)
  | .stmt st => st.spares names && st.declares.isEmpty
  | _ => true

def exprsSpare (names : List String) : List Expr → Bool
  | [] => true
  | e :: es => e.spares names && exprsSpare names es

def entriesSpare (names : List String) : List (String × Expr) → Bool
  | [] => true
  | (_, e) :: es => e.spares names && entriesSpare names es

def optionSpares (names : List String) : Option Expr → Bool
  | none => true
  | some e => e.spares names

def linksSpare (names : List String) : List Link → Bool
  | [] => true
  | .property .. :: ls => linksSpare names ls
  | .method _ _ args :: ls => exprsSpare names args && linksSpare names ls
  | .index _ e :: ls => e.spares names && linksSpare names ls

/-- Whether a statement only reads the variables of these names. -/
def Stmt.spares (names : List String) : Stmt → Bool
  | .skip | .again | .exportName .. => true
  | .expr e | .declare _ _ _ e | .importModule e _ => e.spares names
  | .assign _ target e => e.spares names && target.spares names && target.root.isOpen names
  | .block body => stmtsSpare names body
  | .branch c yes no => c.spares names && stmtsSpare names yes && stmtsSpare names no
  | .switch e cases otherwise => e.spares names && casesSpare names cases &&
      (match otherwise with
        | some st => st.spares names
        | none => true)
  | .loopWhile c body => optionSpares names c && stmtsSpare names body
  | .loopAfter body _ c => stmtsSpare names body && c.spares names
  | .loopOver _ _ source body => source.spares names && stmtsSpare names body
  | .leave e | .finish e | .raise e => optionSpares names e
  | .attempt body _ handler => stmtsSpare names body && stmtsSpare names handler

def stmtsSpare (names : List String) : List Stmt → Bool
  | [] => true
  | st :: rest => st.spares names && stmtsSpare names rest

def casesSpare (names : List String) : List Case → Bool
  | [] => true
  | .case literals guard body :: rest =>
    exprsSpare names literals && optionSpares names guard && body.spares names &&
      casesSpare names rest

end

def Task.spares (names : List String) : Task → Bool
  | .expr _ e => e.spares names
  | .stmt _ st => st.spares names

def Task.declares : Task → List String
  | .expr .. => []
  | .stmt _ st => st.declares

/-- What is assumed of the given variables: these are their names, and nothing is shared in them. -/
structure Given (names : List String) (base : List Binding) : Prop where
  listed : ∀ b ∈ base, b.name ∈ names
  tidy : ∀ b ∈ base, b.value.Tidy

theorem Given.open_ne {names : List String} {base : List Binding} (given : Given names base)
    {name : String} (isOpen : (Expr.var name).isOpen names = true) :
    ∀ b ∈ base, b.name ≠ name := by
  rintro b member rfl
  have absent : b.name ∉ names := by simpa [Expr.isOpen] using isOpen
  exact absent (given.listed b member)

namespace Interpreter

open Run

section Phrases

variable {names : List String} {base : List Binding} {go : Go} {s : Surroundings}

variable (given : Given names base)
  (good : ∀ task : Task, task.spares names = true → Keeps base task.declares (go task))

include good in
theorem evalAll_keeps {es : List Expr} (spare : exprsSpare names es = true) :
    Keeps base [] (evalAll go s es) := by
  induction es with
  | nil => exact .pure _
  | cons e es ih =>
    rw [exprsSpare, Bool.and_eq_true] at spare
    exact .bind (good (.expr s e) spare.1) fun v => .bind (ih spare.2) fun vs => .pure _

include good in
theorem evalEntries_keeps {entries : List (String × Expr)}
    (spare : entriesSpare names entries = true) : Keeps base [] (evalEntries go s entries) := by
  induction entries with
  | nil => exact .pure _
  | cons e rest ih =>
    obtain ⟨k, e⟩ := e
    rw [entriesSpare, Bool.and_eq_true] at spare
    exact .bind (good (.expr s e) spare.1) fun v => .bind (ih spare.2) fun vs => .pure _

include good in
theorem evalCondition_keeps {e : Expr} (spares : e.spares names = true) :
    Keeps base [] (evalCondition go s e) := by
  refine .bind (good (.expr s e) spares) fun v => ?_
  split
  · exact .pure _
  · exact .fail _

include given good in
theorem evalCall_keeps {path : List String} {name : String} {args : List Expr}
    (spare : exprsSpare names args = true)
    (free : (!path.isEmpty || args.head?.all (·.isOpen names)) = true) :
    Keeps base [] (evalCall go s path name args) := by
  unfold evalCall
  split
  · next x rest =>
    rw [exprsSpare, Bool.and_eq_true] at spare
    have other := given.open_ne (by simpa using free : (Expr.var x).isOpen names = true)
    refine .bind (evalAll_keeps good spare.2) fun others => ?_
    refine .bind (readVariable_quiet x).keeps fun v => ?_
    refine .bind (callNamed_quiet go s name (v :: others)).keeps fun r => ?_
    dsimp only
    split
    · exact .bind (.modify fun m _ above => above.assign other _) fun _ => .pure _
    · exact .pure _
  · refine .bind (evalAll_keeps good spare) fun vs => ?_
    exact .bind (callNamed_quiet go s name vs).keeps fun r => .pure _
  · refine .bind (evalAll_keeps good spare) fun vs => ?_
    exact (callQualified_quiet ..).keeps

include good in
theorem prepare_keeps {links : List Link} (spare : linksSpare names links = true) :
    Keeps base [] (prepare go s links) := by
  induction links with
  | nil => exact .pure _
  | cons link rest ih =>
    cases link with
    | property safe name =>
      exact .bind (ih spare) fun _ => .pure _
    | method safe name args =>
      rw [linksSpare, Bool.and_eq_true] at spare
      exact .bind (evalAll_keeps good spare.1) fun vs => .bind (ih spare.2) fun _ => .pure _
    | index safe e =>
      rw [linksSpare, Bool.and_eq_true] at spare
      exact .bind (good (.expr s e) spare.1) fun v => .bind (ih spare.2) fun _ => .pure _

theorem prepare_selects {links : List Link} (select : links.all Link.selects = true) :
    Gives (prepare go s links) fun steps => ∀ step ∈ steps, step.Selects := by
  induction links with
  | nil => exact .pure nofun
  | cons link rest ih =>
    rw [List.all_cons, Bool.and_eq_true] at select
    cases link with
    | property safe name =>
      refine .bind_of (ih select.2) fun steps later => .pure ?_
      exact List.forall_mem_cons.mpr ⟨trivial, later⟩
    | method safe name args => cases select.1
    | index safe e =>
      refine .bind fun v => .bind_of (ih select.2) fun steps later => .pure ?_
      exact List.forall_mem_cons.mpr ⟨trivial, later⟩

include given good in
/-- Only a chain that selects may start from a given variable, and it does not change it. -/
theorem evalChain_keeps {root : Expr} {links : List Link}
    {assign : Option (Option String × Value)} (spares : root.spares names = true)
    (spare : linksSpare names links = true)
    (free : root.isOpen names = true ∨ (links.all Link.selects = true ∧ assign = none)) :
    Keeps base [] (evalChain go s root links assign) := by
  unfold evalChain
  refine (prepare_keeps good spare).bind_of fun m₀ steps m _ _ prepared above => ?_
  have selects : root.isOpen names = true ∨ ((∀ step ∈ steps, step.Selects) ∧ assign = none) := by
    refine free.imp_right fun h => ⟨?_, h.2⟩
    exact (prepare_selects h.1).value m₀ steps m prepared
  split
  · next name =>
    rw [outcome_bind_ok (outcome_get m)]
    dsimp only
    split
    · exact above
    · next b found =>
      split
      · exact above
      · have quiet := (walk_quiet go s assign steps b.value).scope m
        rw [outcome_bind]
        cases walked : outcome (walk go s assign steps b.value) m with
        | mk r m' =>
          rw [walked] at quiet
          have kept : m'.Above base [] _ := above.of_scope quiet
          cases r with
          | error e => exact kept
          | ok r =>
            have stillFound : m'.find? name = some b := by
              rw [Machine.find?, quiet]
              exact found
            have same : b ∈ base → r.2 = b.value := by
              intro member
              rcases selects with isOpen | ⟨selects, rfl⟩
              · have looked : m.scope.find? (·.name == name) = some b := found
                have named : b.name = name := by simpa using List.find?_some looked
                exact absurd named (given.open_ne isOpen b member)
              · exact (walk_tidy selects (given.tidy b member)).value m r m' walked
            dsimp only
            split
            · exact kept
            · exact kept.replace_found stillFound same
  · rw [outcome_bind_ok (outcome_get m)]
    dsimp only
    split
    · exact above
    · refine (Keeps.bind (walk_quiet ..).keeps fun r => ?_).above m above
      exact .bind (.modify fun _ _ above => above) fun _ => .resume _
  · refine (Keeps.bind (good (.expr s root) spares) fun v => ?_).above m above
    exact .bind (walk_quiet ..).keeps fun r => .resume _

include given in
theorem capture_keeps {captures : List String}
    (free : captures.all (!names.contains ·) = true) : Keeps base [] (capture captures) := by
  induction captures with
  | nil => exact .pure _
  | cons name rest ih =>
    rw [List.all_cons, Bool.and_eq_true] at free
    unfold capture
    refine Keeps.get.bind_of fun _ m m' _ _ got above => ?_
    cases got
    split
    · exact above
    · next v shared eq =>
      have after : shared.Above base [] _ := above.share (given.open_ne free.1) eq
      rw [outcome_bind_ok (outcome_set _ shared)]
      exact (Keeps.bind (ih free.2) fun _ => .pure _).above shared after

include given good in
/-- An expression keeps the given variables if the phrases in it do. -/
theorem evalExpr_keeps {e : Expr} (spares : e.spares names = true) :
    Keeps base [] (evalExpr go s e) := by
  cases e with
  | unit | bool | int | float | char | str => exact .pure _
  | interpolated parts => exact .bind (evalAll_keeps good spares) fun vs => .pure _
  | array items => exact .bind (evalAll_keeps good spares) fun vs => .pure _
  | map entries => exact .bind (evalEntries_keeps good spares) fun vs => .pure _
  | var name => exact (readVariable_quiet name).keeps
  | qualified path name => exact (readQualified_quiet s path name).keeps
  | this =>
    refine .bind .get fun m => ?_
    split
    · exact .pure _
    · exact .fail _
  | call path name args =>
    rw [Expr.spares, Bool.and_eq_true] at spares
    exact evalCall_keeps given good spares.1 spares.2
  | unary operator e => exact .bind (good (.expr s e) spares) fun v => .ofExcept _
  | binary operator l r =>
    rw [Expr.spares, Bool.and_eq_true] at spares
    refine .bind (good (.expr s l) spares.1) fun a => .bind (good (.expr s r) spares.2) fun b => ?_
    split
    · exact .ofExcept _
    · split
      · exact .pure _
      · exact .ofExcept _
    · exact .ofExcept _
  | and l r =>
    rw [Expr.spares, Bool.and_eq_true] at spares
    refine .bind (evalCondition_keeps good spares.1) fun b => ?_
    split
    · exact .bind (evalCondition_keeps good spares.2) fun _ => .pure _
    · exact .pure _
  | or l r =>
    rw [Expr.spares, Bool.and_eq_true] at spares
    refine .bind (evalCondition_keeps good spares.1) fun b => ?_
    split
    · exact .pure _
    · exact .bind (evalCondition_keeps good spares.2) fun _ => .pure _
  | coalesce l r =>
    rw [Expr.spares, Bool.and_eq_true] at spares
    refine .bind (good (.expr s l) spares.1) fun v => ?_
    split
    · exact good (.expr s r) spares.2
    · exact .pure _
  | chain root links =>
    simp only [Expr.spares, Bool.and_eq_true, Bool.or_eq_true] at spares
    obtain ⟨⟨rootSpares, spare⟩, free⟩ := spares
    exact evalChain_keeps given good rootSpares spare (free.imp_right fun h => ⟨h, rfl⟩)
  | closure params captures body =>
    exact .bind (capture_keeps given spares) fun _ => .pure _
  | stmt st =>
    rw [Expr.spares, Bool.and_eq_true, List.isEmpty_iff] at spares
    have kept := good (.stmt s st) spares.1
    rwa [Task.declares, spares.2] at kept

include good in
theorem runBody_keeps {body : List Stmt} (spare : stmtsSpare names body = true) :
    Keeps base (body.flatMap Stmt.declares) (runBody go s body) := by
  induction body with
  | nil => exact .pure _
  | cons st rest ih =>
    rw [stmtsSpare, Bool.and_eq_true] at spare
    rw [List.flatMap_cons]
    have first := (good (.stmt s st) spare.1).mono
      (List.subset_append_left st.declares (rest.flatMap Stmt.declares))
    cases rest with
    | nil => exact first
    | cons next rest =>
      exact .bind first fun _ => (ih spare.2).mono (List.subset_append_right _ _)

include good in
/-- A body after a variable for it. -/
theorem declaring_keeps {b : Binding} {body : List Stmt} (spare : stmtsSpare names body = true) :
    Keeps base (b.name :: body.flatMap Stmt.declares) (do
      modify fun m => m.declare b
      runBody go s body) :=
  .bind (declare_keeps List.mem_cons_self) fun _ =>
    (runBody_keeps good spare).mono (List.subset_cons_self _ _)

theorem roundOf_keeps {x : Run Value} {within may : List String} (keeps : Keeps base within x) :
    Keeps base may (roundOf x) := by
  refine .bind (.observe (.inBlock keeps)) fun r => ?_
  split
  · exact .pure _
  · exact .pure _
  · exact .pure _
  · exact .resume _

theorem rounds_keeps {round : Run (Option Value)} {may : List String}
    (keeps : Keeps base may round) (n : Nat) : Keeps base may (ExceptT.mk (rounds round n)) := by
  constructor
  intro m below above
  change (rounds round n m).2.Above base may below
  induction n generalizing m with
  | zero => exact above
  | succ n ih =>
    have step := keeps.above m above
    rw [outcome] at step
    rw [rounds]
    split <;> next ended => rw [ended] at step; first | exact ih _ step | exact step

theorem roundsOver_keeps {round : Nat → Value → Run (Option Value)} {may : List String}
    (keeps : ∀ i v, Keeps base may (round i v)) (vs : List Value) (i : Nat) :
    Keeps base may (ExceptT.mk (roundsOver round vs i)) := by
  constructor
  intro m below above
  change (roundsOver round vs i m).2.Above base may below
  induction vs generalizing i m with
  | nil => exact above
  | cons v vs ih =>
    have step := (keeps i v).above m above
    rw [outcome] at step
    rw [roundsOver]
    split <;> next ended => rw [ended] at step; first | exact ih _ _ step | exact step

include good in
theorem findCase_keeps {fits : Value → Value → Bool} {v : Value} {options : List Case}
    (spare : casesSpare names options = true) : Keeps base [] (findCase go s fits v options) := by
  induction options with
  | nil => exact .pure _
  | cons first rest ih =>
    obtain ⟨literals, guard, body⟩ := first
    simp only [casesSpare, Bool.and_eq_true] at spare
    obtain ⟨⟨⟨literalsSpare, guardSpares⟩, -⟩, restSpare⟩ := spare
    have chosen (holds : Bool) : Keeps base [] (if holds = true then pure (some body)
        else findCase go s fits v rest) := by
      split
      · exact .pure _
      · exact ih restSpare
    unfold findCase
    refine .bind (evalAll_keeps good literalsSpare) fun ls => ?_
    split
    · dsimp only
      split
      · exact .bind (evalCondition_keeps good guardSpares) chosen
      · exact .bind (.pure _) chosen
    · exact ih restSpare

theorem findCase_spares {fits : Value → Value → Bool} {v : Value} {options : List Case}
    (spare : casesSpare names options = true) :
    Gives (findCase go s fits v options) fun found => ∀ st ∈ found, st.spares names = true := by
  induction options with
  | nil => exact .pure nofun
  | cons first rest ih =>
    obtain ⟨literals, guard, body⟩ := first
    simp only [casesSpare, Bool.and_eq_true] at spare
    obtain ⟨⟨-, bodySpares⟩, restSpare⟩ := spare
    have chosen (holds : Bool) : Gives (if holds = true then pure (some body)
        else findCase go s fits v rest) fun found => ∀ st ∈ found, st.spares names = true := by
      split
      · refine .pure fun st same => ?_
        cases same
        exact bodySpares
      · exact ih restSpare
    unfold findCase
    refine .bind fun ls => ?_
    split
    · dsimp only
      split <;> exact .bind chosen
    · exact ih restSpare

include good in
theorem declare_stmt_keeps {constant exported : Bool} {name : String} {e : Expr}
    (spares : (Stmt.declare constant exported name e).spares names = true) :
    Keeps base [name] (execStmt go s (.declare constant exported name e)) := by
  refine .bind ((good (.expr s e) spares).mono (List.nil_subset _)) fun v => ?_
  refine .bind (declare_keeps List.mem_cons_self) fun _ => ?_
  dsimp only
  split
  · exact .bind (.modify fun _ _ above => above) fun _ => .pure _
  · exact .pure _

include given good in
theorem assign_keeps {operator : Option String} {target e : Expr}
    (spares : (Stmt.assign operator target e).spares names = true) :
    Keeps base [] (execStmt go s (.assign operator target e)) := by
  simp only [Stmt.spares, Bool.and_eq_true] at spares
  obtain ⟨⟨value, targetSpares⟩, isOpen⟩ := spares
  cases target with
  | var name =>
    have other := given.open_ne isOpen
    refine .bind (good (.expr s e) value) fun new => .bind .get fun m => ?_
    split
    · exact .fail _
    · dsimp only
      split
      · exact .fail_bind _ _
      · refine .bind (.ofExcept _) fun v => ?_
        exact .bind (.modify fun m _ above => above.assign other v) fun _ => .pure _
  | this =>
    refine .bind (good (.expr s e) value) fun new => .bind .get fun m => ?_
    split
    · exact .fail _
    · refine .bind (.ofExcept _) fun v => ?_
      exact .bind (.modify fun _ _ above => above) fun _ => .pure _
  | chain root links =>
    simp only [Expr.spares, Bool.and_eq_true] at targetSpares
    obtain ⟨⟨rootSpares, spare⟩, -⟩ := targetSpares
    refine .bind (good (.expr s e) value) fun new => ?_
    exact .bind (evalChain_keeps given good rootSpares spare (.inl isOpen)) fun _ => .pure _
  | _ => exact .bind (good (.expr s e) value) fun new => .pure _

include good in
theorem branch_keeps {c : Expr} {yes no : List Stmt}
    (spares : (Stmt.branch c yes no).spares names = true) :
    Keeps base [] (execStmt go s (.branch c yes no)) := by
  simp only [Stmt.spares, Bool.and_eq_true] at spares
  obtain ⟨⟨condition, yesSpare⟩, noSpare⟩ := spares
  refine .bind (evalCondition_keeps good condition) fun b => ?_
  cases b with
  | true => exact .inBlock (runBody_keeps good yesSpare)
  | false => exact .inBlock (runBody_keeps good noSpare)

include good in
theorem switch_keeps {subject : Expr} {options : List Case} {otherwise : Option Stmt}
    (spares : (Stmt.switch subject options otherwise).spares names = true) :
    Keeps base [] (execStmt go s (.switch subject options otherwise)) := by
  unfold Stmt.spares at spares
  simp only [Bool.and_eq_true] at spares
  obtain ⟨⟨subjectSpares, spare⟩, rest⟩ := spares
  refine .bind (good (.expr s subject) subjectSpares) fun v => ?_
  refine .bind_gives (findCase_keeps good spare) (findCase_spares spare) fun found fits => ?_
  extract_lets onward
  have onward_keeps (found : Option Stmt)
      (foundSpares : ∀ st ∈ found, st.spares names = true) : Keeps base [] (onward found) := by
    unfold onward
    split
    · next body chosen =>
      refine .inBlock (good (.stmt s body) ?_)
      cases found with
      | some st =>
        cases chosen
        exact foundSpares _ rfl
      | none =>
        rw [Option.none_or] at chosen
        rw [chosen] at rest
        exact rest
    · exact .pure _
  split
  · exact .bind_gives (.pure _) (.pure fits) onward_keeps
  · exact .bind_gives (findCase_keeps good spare) (findCase_spares spare) onward_keeps

include good in
theorem loopWhile_keeps {condition : Option Expr} {body : List Stmt}
    (spares : (Stmt.loopWhile condition body).spares names = true) :
    Keeps base [] (execStmt go s (.loopWhile condition body)) := by
  rw [Stmt.spares, Bool.and_eq_true] at spares
  have round (going : Bool) : Keeps base [] (if going = true then roundOf (runBody go s body)
      else pure (some .unit)) := by
    split
    · exact roundOf_keeps (runBody_keeps good spares.2)
    · exact .pure _
  refine rounds_keeps ?_ _
  dsimp only
  cases condition with
  | some e => exact .bind (evalCondition_keeps good spares.1) round
  | none => exact .bind (.pure _) round

include good in
theorem loopAfter_keeps {body : List Stmt} {going : Bool} {condition : Expr}
    (spares : (Stmt.loopAfter body going condition).spares names = true) :
    Keeps base [] (execStmt go s (.loopAfter body going condition)) := by
  rw [Stmt.spares, Bool.and_eq_true] at spares
  refine rounds_keeps (.bind (roundOf_keeps (runBody_keeps good spares.1)) fun r => ?_) _
  split
  · exact .pure _
  · exact .bind (evalCondition_keeps good spares.2) fun _ => .pure _

include good in
theorem loopOver_keeps {name : String} {counter : Option String} {source : Expr} {body : List Stmt}
    (spares : (Stmt.loopOver name counter source body).spares names = true) :
    Keeps base [] (execStmt go s (.loopOver name counter source body)) := by
  rw [Stmt.spares, Bool.and_eq_true] at spares
  refine .bind (good (.expr s source) spares.1) fun v => .bind (.ofExcept _) fun vs => ?_
  refine roundsOver_keeps (fun i v => ?_) vs 0
  cases counter with
  | some c =>
    have one : Keeps base (c :: name :: body.flatMap Stmt.declares) (do
        modify fun m => m.declare { name := name, value := v }
        runBody go s body) :=
      (declaring_keeps good spares.2).mono (List.subset_cons_self c _)
    exact roundOf_keeps (.bind (declare_keeps List.mem_cons_self) fun _ => one)
  | none => exact roundOf_keeps (declaring_keeps good spares.2)

include good in
theorem attempt_keeps {body handler : List Stmt} {name : Option String}
    (spares : (Stmt.attempt body name handler).spares names = true) :
    Keeps base [] (execStmt go s (.attempt body name handler)) := by
  rw [Stmt.spares, Bool.and_eq_true] at spares
  refine .bind (.observe (.inBlock (runBody_keeps good spares.1))) fun r => ?_
  split
  · dsimp only
    split
    · exact .fail_bind _ _
    · refine .bind (.observe ?_) fun r => ?_
      · cases name with
        | some n => exact .inBlock (declaring_keeps good spares.2)
        | none => exact .inBlock (runBody_keeps good spares.2)
      · split
        · exact .pure _
        · exact .fail _
        · exact .resume _
  · exact .resume _

include good in
theorem importModule_keeps {source : Expr} {name : Option String}
    (spares : (Stmt.importModule source name).spares names = true) :
    Keeps base [] (execStmt go s (.importModule source name)) := by
  refine .bind (good (.expr s source) spares) fun v => ?_
  split
  · split
    · exact .fail _
    · next text _ =>
      refine .bind (.observe (loadModule_quiet go s text).keeps) fun r => ?_
      extract_lets finish onward
      have onward_keeps (loaded : Module) : Keeps base [] (onward loaded) := by
        unfold onward
        split
        · exact .bind (.modify fun _ _ above => above) fun _ => .pure _
        · exact .pure _
      split
      · exact .bind (.fail _) onward_keeps
      · exact .bind (.resume _) onward_keeps
  · exact .fail _

theorem exportName_keeps {name published : String} :
    Keeps base [] (execStmt go s (.exportName name published)) := by
  refine .bind .get fun m => ?_
  split
  · exact .fail _
  · exact .bind (.modify fun _ _ above => above) fun _ => .pure _

include given good in
/-- A statement keeps the given variables if the phrases in it do. -/
theorem execStmt_keeps {st : Stmt} (spares : st.spares names = true) :
    Keeps base st.declares (execStmt go s st) := by
  cases st with
  | skip => exact .pure _
  | expr e => exact good (.expr s e) spares
  | declare => exact declare_stmt_keeps good spares
  | assign => exact assign_keeps given good spares
  | block body => exact .inBlock (runBody_keeps good spares)
  | branch => exact branch_keeps good spares
  | switch => exact switch_keeps good spares
  | loopWhile => exact loopWhile_keeps good spares
  | loopAfter => exact loopAfter_keeps good spares
  | loopOver => exact loopOver_keeps good spares
  | leave e | finish e =>
    cases e with
    | some e => exact .bind (good (.expr s e) spares) fun v => .throw _
    | none => exact .bind (.pure _) fun v => .throw _
  | raise e =>
    cases e with
    | some e => exact .bind (good (.expr s e) spares) fun v => .fail _
    | none => exact .bind (.pure _) fun v => .fail _
  | again => exact .throw _
  | attempt => exact attempt_keeps good spares
  | importModule => exact importModule_keeps good spares
  | exportName => exact exportName_keeps

include given in
/-- Every phrase that spares the given variables keeps them, however deeply phrases nest. -/
theorem run_keeps (n : Nat) {task : Task} (spares : task.spares names = true) :
    Keeps base task.declares (run n task) := by
  induction n generalizing task with
  | zero => exact .fail _
  | succ n ih =>
    cases task with
    | expr s e => exact evalExpr_keeps given (fun _ => ih) spares
    | stmt s st => exact execStmt_keeps given (fun _ => ih) spares

end Phrases

end Interpreter

end RuleService.Snippet
