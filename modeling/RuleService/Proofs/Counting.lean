import RuleService.Proofs.Runs
import RuleService.Proofs.Sharing

namespace RuleService

open Snippet Run Interpreter

/-- The snippet that counts up. -/
def countUp : String := "data.count += 1"

namespace Counting

/-- What the snippet is made of. -/
def statement : Stmt :=
  .assign (some "+") (.chain (.var "data") [.property false "count"]) (.int 1)

def isStatement : Except Malformation Program → Bool
  | .ok ⟨[], [.assign (some "+") (.chain (.var "data") [.property false "count"]) (.int 1)]⟩ => true
  | _ => false

theorem eq_of_isStatement {p : Except Malformation Program} (read : isStatement p = true) :
    p = .ok ⟨[], [statement]⟩ := by
  unfold isStatement at read
  split at read
  · rfl
  · cases read

theorem read : Program.ofText countUp = .ok ⟨[], [statement]⟩ :=
  eq_of_isStatement (by decide +kernel)

/-- On a machine whose variable `data` is a map with a number at `count`, the next number is put
there and nothing else changes. -/
theorem run_statement {s : Surroundings} {m : Machine} {entries : Value.Entries}
    {b : Binding} {c : Int} (found : m.find? "data" = some b) (assignable : b.constant = false)
    (map : b.value = .map entries) (count : Value.entry? entries "count" = some (.int c))
    (fits : Value.isInt (c + 1) = true) :
    outcome (run nestingLimit (.stmt s statement)) m =
      (.ok .unit, m.store "data" (.map (Value.setEntry entries "count" (.int (c + 1))))) := by
  have added : assigned (some "+") ((Value.entry? entries "count").getD .unit) (.int 1) =
      .ok (.int (c + 1)) := by
    simp [count, assigned, Operators.apply, Operators.builtIn?, Operators.ints, Operators.checked,
      fits]
  obtain ⟨n, deep⟩ := nestingLimit_eq_add (show 2 ≤ 1000 by omega)
  rw [deep, run_stmt]
  apply execStmt_assign rfl rfl found assignable
  rw [map]
  exact walk_key .property added

end Counting

/-- That a number is at `count` in a bag. -/
def CountIs (bag : Fields) (c : Int) : Prop := Named.get? bag "count" = some (.int c)

variable (modules : Modules) (scripts : String → Option String) (seed : Nat)

/-- What the bag is left as by the snippet that counts up. -/
theorem countUp_binding {ctx : Context} {s : State} {c : Int} (free : "data" ∉ ctx.locals.keys)
    (count : CountIs s.data c) (fits : Value.isInt c = true) (next : Value.isInt (c + 1) = true) :
    ∃ bag, ((engine modules scripts seed).script countUp (bindingsFor ctx s)).binding "data" =
      some (some (.obj bag)) ∧ CountIs bag (c + 1) := by
  have found : (Machine.ofBindings (bindingsFor ctx s) seed).find? "data" =
      some { name := "data", value := .map (Value.ofJsonFields s.data) } := by
    rw [Machine.find?_ofBindings, lookup_bindingsFor, lookup_local_none free]
    simp [List.lookup_cons, Value.ofJson]
  have held : Value.entry? (Value.ofJsonFields s.data) "count" = some (.int c) := by
    rw [Value.entry?_ofJsonFields, count]
    simp [Value.ofJson, fits]
  obtain ⟨before, given, -⟩ := Json.exchanged_entries s.data
  obtain ⟨bag, told, fields⟩ := Value.toJsonEntries_setEntry given
    (show (Value.int (c + 1)).toJson? = some (.int (c + 1)) from rfl) "count"
  refine ⟨bag, ?_, by rw [CountIs, fields, Named.get?_put_self]⟩
  have ended := script_eq modules scripts seed Counting.read
    (Counting.run_statement found rfl rfl held next)
  rw [ended, finishOf_binding _ (Machine.find?_store_self found _)]
  simp [Machine.content, Value.toJson?, told]

/-- The snippet that counts up adds one, whatever it tells. -/
theorem settle_countUp {ctx : Context} {s : State} {c : Int} (free : "data" ∉ ctx.locals.keys)
    (count : CountIs s.data c) (fits : Value.isInt c = true) (next : Value.isInt (c + 1) = true) :
    CountIs (settle countUp s
      ((engine modules scripts seed).script countUp (bindingsFor ctx s))).1.data (c + 1) := by
  obtain ⟨bag, bound, counted⟩ :=
    countUp_binding modules scripts seed free count fits next
  have written : committedData countUp s.data
      (((engine modules scripts seed).script countUp (bindingsFor ctx s)).binding "data") =
      .ok bag := by
    rw [bound]
    rfl
  rw [settle_data written]
  exact counted

/-- That all snippets of a plan count up, on engines of the language, with the bag in sight. -/
def Plan.Counts {ι : Type} (plan : Plan ι) : Prop :=
  ∀ i reports job, plan i reports = some job → job.code = countUp ∧
    "data" ∉ job.ctx.locals.keys ∧
      ∃ modules scripts seed, job.way = (engine modules scripts seed).script

namespace Ledger

variable {ι : Type} [DecidableEq ι] {plan : Plan ι} {l m : Ledger ι} {i : ι} {c : Int}

theorem turn_counts (counts : plan.Counts) (taken : l.turn plan i = some m)
    (count : CountIs l.bag c) (fits : Value.isInt c = true) (next : Value.isInt (c + 1) = true) :
    CountIs m.bag (c + 1) := by
  obtain ⟨job, s, planned, settled, bag, -⟩ := turn_eq_some taken
  obtain ⟨code, free, modules, scripts, seed, way⟩ := counts i _ job planned
  rw [bag, settled, code, way]
  have started : CountIs ({ data := l.bag, response := l.response i } : State).data c := count
  exact settle_countUp modules scripts seed free started fits next

theorem serial_counts (counts : plan.Counts) {turns : List ι} (ran : l.serial plan turns = some m)
    (count : CountIs l.bag c) (low : Value.leastInt ≤ c)
    (high : c + turns.length ≤ Value.greatestInt) : CountIs m.bag (c + turns.length) := by
  induction turns generalizing l c with
  | nil =>
    obtain rfl : l = m := Option.some.inj ran
    simpa using count
  | cons i turns ih =>
    rw [serial_cons, Option.bind_eq_some_iff] at ran
    obtain ⟨mid, taken, later⟩ := ran
    rw [List.length_cons, Int.natCast_succ] at high
    have fits : Value.isInt c = true := by
      simp only [Value.isInt, Bool.and_eq_true, decide_eq_true_eq]
      omega
    have next : Value.isInt (c + 1) = true := by
      simp only [Value.isInt, Bool.and_eq_true, decide_eq_true_eq]
      omega
    have counted := ih later (turn_counts counts taken count fits next) (by omega) (by omega)
    rw [List.length_cons, Int.natCast_succ, Int.add_comm (turns.length : Int) 1, ← Int.add_assoc]
    exact counted

/-- Each turn of a request gives one report. -/
theorem serial_reports {turns : List ι} (ran : l.serial plan turns = some m) (j : ι) :
    (m.reports j).length = (l.reports j).length + turns.count j := by
  induction turns generalizing l with
  | nil =>
    obtain rfl : l = m := Option.some.inj ran
    simp
  | cons i turns ih =>
    rw [serial_cons, Option.bind_eq_some_iff] at ran
    obtain ⟨mid, taken, later⟩ := ran
    obtain ⟨job, s, -, -, -, reports⟩ := turn_eq_some taken
    rw [ih later, reports]
    by_cases same : j = i
    · subst same
      simp
      omega
    · simp [Function.update_of_ne same, Ne.symm same]

end Ledger

/-- What holds of the world `w` to which requests came from `l`, taking the lock in the order of
`turns`. -/
structure Serialized {ι : Type} [DecidableEq ι] (plan : Plan ι) (l : Ledger ι) (turns : List ι)
    (w : World ι) : Prop where
  /-- At rest the bag, the responses and the reports are those of running the snippets one at a
  time. -/
  serial : w.AtRest → l.serial plan turns = some w.ledger
  /-- Every turn has given one report. -/
  reported : w.AtRest → ∀ i, (w.party i).reports.length = (l.reports i).length + turns.count i
  /-- What is written over is what the writing snippet started from. -/
  current : ∀ i v, w.advance plan i = some v → v.bag ≠ w.bag →
    ∃ job copy finish, (w.party i).phase = .ran job copy finish ∧ w.holder = some i ∧
      copy.data = w.bag
  /-- While a snippet is under way on its copy, no other request changes the bag. -/
  alone : ∀ i job copy, ((w.party i).phase = .copied job copy ∨
      ∃ finish, (w.party i).phase = .ran job copy finish) →
    ∀ j v, j ≠ i → w.advance plan j = some v → v.bag = w.bag
  /-- Nobody waits for ever. -/
  possible : (∃ i, (w.party i).phase ≠ .idle ∨ (plan i (w.party i).reports).isSome = true) →
    ∃ i v, w.advance plan i = some v
  /-- Snippets that count up add as many as there were turns. -/
  counted : plan.Counts → ∀ c, CountIs l.bag c → Value.leastInt ≤ c →
    c + turns.length ≤ Value.greatestInt → w.AtRest → CountIs w.bag (c + turns.length)

/-- Requests that share the bag come to what they would come to one snippet at a time, in the order in
which they took the lock. -/
theorem World.follow_serialized {ι : Type} [DecidableEq ι] {plan : Plan ι} {l : Ledger ι}
    {schedule turns : List ι} {w : World ι}
    (ran : (World.start l).follow plan schedule = some (turns, w)) :
    Serialized plan l turns w := by
  obtain ⟨sound, serial⟩ := World.follow_serial (World.sound_start l) ran
  rw [World.outlook_start] at serial
  have settled (rest : w.AtRest) : l.serial plan turns = some w.ledger := by
    rw [serial, World.outlook_atRest sound rest]
  exact
    { serial := settled
      reported := fun rest i => Ledger.serial_reports (settled rest) i
      current := fun i v moved changed => World.written_current sound moved changed
      alone := fun i job copy copied j v other moved =>
        World.unwritten_between sound copied other moved
      possible := World.advance_possible sound
      counted := fun counts c count low high rest =>
        Ledger.serial_counts counts (settled rest) count low high }

/-- Two requests that each count up once. -/
def twoCounters : Plan Bool := fun _ reports =>
  if reports.isEmpty then some { way := bareEngine.script, ctx := {}, code := countUp } else none

theorem twoCounters_counts : twoCounters.Counts := by
  intro i reports job planned
  unfold twoCounters at planned
  split at planned
  · obtain rfl := Option.some.inj planned
    exact ⟨rfl, by decide, ownModules, fun _ => none, 0, rfl⟩
  · cases planned

/-- Two requests that count up from nought, their steps mixed, count to two. -/
theorem World.follow_serialized_mixed : ∃ turns w,
    (World.start ⟨[("count", .int 0)], fun _ => {}, fun _ => []⟩).follow twoCounters
        [true, true, true, true, false, true, false, true, false, false, false, false] =
      some (turns, w) ∧
    turns = [true, false] ∧ CountIs w.bag 2 := by
  have ran : ((World.start ⟨[("count", .int 0)], fun _ => {}, fun _ => []⟩).follow twoCounters
      [true, true, true, true, false, true, false, true, false, false, false, false]).map
        (fun x => (x.1, (x.2.party true).phase.isIdle, (x.2.party false).phase.isIdle)) =
      some ([true, false], true, true) := by decide +kernel
  obtain ⟨⟨turns, w⟩, followed, eq⟩ := Option.map_eq_some_iff.mp ran
  simp only [Prod.mk.injEq] at eq
  obtain ⟨rfl, first, second⟩ := eq
  have rest : w.AtRest := by
    intro i
    cases i with
    | true => exact Phase.isIdle_iff.mp first
    | false => exact Phase.isIdle_iff.mp second
  have counted := (World.follow_serialized followed).counted twoCounters_counts 0 rfl (by decide)
    (by decide) rest
  exact ⟨_, w, followed, rfl, counted⟩

end RuleService
