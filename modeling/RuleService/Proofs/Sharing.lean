import Mathlib.Logic.Function.Basic
import RuleService.Proofs.Commit

namespace RuleService

/-- A snippet to run: its text, what it sees, and the way of an engine it runs in. -/
structure Job where
  way : String → Bindings → Finish
  ctx : Context
  code : String

/-- What a snippet came to. -/
abbrev Report := Except Failure Held

/-- What each request runs next, by the reports of its snippets so far; none at its end. -/
abbrev Plan (ι : Type) := ι → List Report → Option Job

/-- How far a request has come with a snippet. -/
inductive Phase where
  | idle
  /-- It holds the lock, and copies of the bag and of its response. -/
  | copied (job : Job) (copy : State)
  /-- The snippet ended; the lock is still held. -/
  | ran (job : Job) (copy : State) (finish : Finish)
  /-- The bag could not be written; the lock is still held. -/
  | refused (f : Failure)
  /-- The bag is written; the lock is still held. -/
  | written (job : Job) (copy : State) (finish : Finish)
  /-- The lock is released; the response is not committed yet. -/
  | released (job : Job) (copy : State) (finish : Finish)
  /-- All is committed, and the report is due. -/
  | done (report : Report)

/-- A request, with its own response and the reports of its snippets. -/
structure Party where
  response : Response := {}
  reports : List Report := []
  phase : Phase := .idle

/-- All requests, and the bag with its lock. The steps of a request come in any order between those of the
others. -/
structure World (ι : Type) where
  bag : Fields
  holder : Option ι := none
  party : ι → Party

/-- What is left when no snippet is under way. -/
@[ext] structure Ledger (ι : Type) where
  bag : Fields
  response : ι → Response
  reports : ι → List Report

variable {ι : Type}

namespace Phase

def isIdle : Phase → Bool
  | idle => true
  | _ => false

theorem isIdle_iff {phase : Phase} : phase.isIdle = true ↔ phase = .idle := by
  cases phase <;> simp [isIdle]

end Phase

namespace World

/-- No snippet is under way, and none has run. -/
def start (l : Ledger ι) : World ι where
  bag := l.bag
  party i := { response := l.response i, reports := l.reports i }

def AtRest (w : World ι) : Prop := ∀ i, (w.party i).phase = .idle

def ledger (w : World ι) : Ledger ι where
  bag := w.bag
  response i := (w.party i).response
  reports i := (w.party i).reports

variable [DecidableEq ι]

def put (w : World ι) (i : ι) (p : Party) : World ι :=
  { w with party := Function.update w.party i p }

/-- The next step of a request; none if it is at its end or waits for the lock. -/
def advance (plan : Plan ι) (w : World ι) (i : ι) : Option (World ι) :=
  let p := w.party i
  match p.phase with
  | .idle =>
    match plan i p.reports, w.holder with
    | some job, none =>
      let copy : State := { data := w.bag, response := p.response }
      some ({ w with holder := some i }.put i { p with phase := .copied job copy })
    | _, _ => none
  | .copied job copy =>
    let finish := job.way job.code (bindingsFor job.ctx copy)
    some (w.put i { p with phase := .ran job copy finish })
  | .ran job copy finish =>
    match committedData job.code w.bag (finish.binding "data") with
    | .error f => some (w.put i { p with phase := .refused f })
    | .ok bag => some ({ w with bag }.put i { p with phase := .written job copy finish })
  | .refused f => some ({ w with holder := none }.put i { p with phase := .done (.error f) })
  | .written job copy finish =>
    some ({ w with holder := none }.put i { p with phase := .released job copy finish })
  | .released job copy finish =>
    match committedResponse job.code finish.binding copy.response handles with
    | .error f => some (w.put i { p with phase := .done (.error f) })
    | .ok response => some (w.put i { p with response, phase := .done (finish.told job.code) })
  | .done report =>
    some (w.put i { p with reports := p.reports ++ [report], phase := .idle })

/-- The requests make the steps of a schedule in its order; also tells who took the lock, in order. -/
def follow (plan : Plan ι) : World ι → List ι → Option (List ι × World ι)
  | w, [] => some ([], w)
  | w, i :: schedule => do
    let v ← w.advance plan i
    let (turns, u) ← v.follow plan schedule
    pure (if (w.party i).phase.isIdle then i :: turns else turns, u)

end World

namespace Ledger

variable [DecidableEq ι]

/-- A request runs its next snippet, and nothing comes between. -/
def turn (plan : Plan ι) (l : Ledger ι) (i : ι) : Option (Ledger ι) := do
  let job ← plan i (l.reports i)
  let (report, s) := (runSnippet job.way job.ctx job.code).outcome
    { data := l.bag, response := l.response i }
  pure
    { bag := s.data
      response := Function.update l.response i s.response
      reports := Function.update l.reports i (l.reports i ++ [report]) }

/-- The requests run their snippets one at a time, in this order. -/
def serial (plan : Plan ι) (l : Ledger ι) (turns : List ι) : Option (Ledger ι) :=
  turns.foldlM (turn plan) l

/-- A turn leaves what the snippet is settled as, and its report. -/
theorem turn_eq_some {plan : Plan ι} {l m : Ledger ι} {i : ι} (taken : l.turn plan i = some m) :
    ∃ job s, plan i (l.reports i) = some job ∧
      s = settle job.code { data := l.bag, response := l.response i }
        (job.way job.code (bindingsFor job.ctx { data := l.bag, response := l.response i })) ∧
      m.bag = s.1.data ∧ m.reports = Function.update l.reports i (l.reports i ++ [s.2]) := by
  simp only [turn, Option.bind_eq_bind, Option.bind_eq_some_iff] at taken
  obtain ⟨job, planned, eq⟩ := taken
  simp only [outcome_runSnippet, Option.pure_def, Option.some.injEq] at eq
  subst eq
  exact ⟨job, _, planned, rfl, rfl, rfl⟩

theorem serial_cons (plan : Plan ι) (l : Ledger ι) (i : ι) (turns : List ι) :
    l.serial plan (i :: turns) = (l.turn plan i).bind fun m => m.serial plan turns := rfl

end Ledger

/-- What will be the response and the reports. -/
def Party.outlook (p : Party) : Response × List Report :=
  match p.phase with
  | .idle => (p.response, p.reports)
  | .copied job copy =>
    let (s, report) := settle job.code copy (job.way job.code (bindingsFor job.ctx copy))
    (s.response, p.reports ++ [report])
  | .ran job copy finish | .written job copy finish | .released job copy finish =>
    let (s, report) := settle job.code copy finish
    (s.response, p.reports ++ [report])
  | .refused f => (p.response, p.reports ++ [.error f])
  | .done report => (p.response, p.reports ++ [report])

/-- What will be the bag when the holder of the lock has come so far. -/
def Phase.bag (current : Fields) : Phase → Fields
  | copied job copy =>
    (settle job.code copy (job.way job.code (bindingsFor job.ctx copy))).1.data
  | ran job copy finish => (settle job.code copy finish).1.data
  | _ => current

/-- What holds of a request, given whether it holds the lock and what the bag is: just between taking
the lock and releasing it the lock is its own, its copies are current until it writes, and past the
writing the bag could be written. -/
def Party.Sound (holds : Prop) (bag : Fields) (p : Party) : Prop :=
  match p.phase with
  | .idle | .done _ => ¬ holds
  | .refused _ => holds
  | .copied _ copy | .ran _ copy _ => holds ∧ copy.data = bag ∧ copy.response = p.response
  | .written job copy finish =>
    holds ∧ copy.response = p.response ∧
      ∃ bag, committedData job.code copy.data (finish.binding "data") = .ok bag
  | .released job copy finish =>
    ¬ holds ∧ copy.response = p.response ∧
      ∃ bag, committedData job.code copy.data (finish.binding "data") = .ok bag

/-- A request stays sound while others move: they leave the lock alone if it is the holder, and do
not give it the lock, and write the bag only if it is not the holder. -/
theorem Party.Sound.frame {holds holds' : Prop} {bag bag' : Fields} {p : Party}
    (sound : p.Sound holds bag) (lock : holds' ↔ holds) (same : holds → bag' = bag) :
    p.Sound holds' bag' := by
  unfold Party.Sound at sound ⊢
  cases phase : p.phase with
  | idle | done =>
    rw [phase] at sound
    exact fun h => sound (lock.mp h)
  | refused =>
    rw [phase] at sound
    exact lock.mpr sound
  | copied | ran =>
    rw [phase] at sound
    obtain ⟨h, current, response⟩ := sound
    exact ⟨lock.mpr h, current.trans (same h).symm, response⟩
  | written =>
    rw [phase] at sound
    obtain ⟨h, rest⟩ := sound
    exact ⟨lock.mpr h, rest⟩
  | released =>
    rw [phase] at sound
    obtain ⟨h, rest⟩ := sound
    exact ⟨fun h' => h (lock.mp h'), rest⟩

namespace World

def Sound (w : World ι) : Prop := ∀ i, (w.party i).Sound (w.holder = some i) w.bag

def outlook (w : World ι) : Ledger ι where
  bag := w.holder.elim w.bag fun i => (w.party i).phase.bag w.bag
  response i := (w.party i).outlook.1
  reports i := (w.party i).outlook.2

theorem sound_start (l : Ledger ι) : (start l).Sound := by
  intro i
  change ¬ (none = some i)
  simp

theorem outlook_start (l : Ledger ι) : (start l).outlook = l := rfl

/-- At rest nobody holds the lock, and nothing is to come. -/
theorem outlook_atRest {w : World ι} (sound : w.Sound) (rest : w.AtRest) : w.outlook = w.ledger := by
  have free : w.holder = none := by
    cases held : w.holder with
    | none => rfl
    | some i =>
      have idle := sound i
      simp only [Party.Sound, rest i] at idle
      exact absurd held idle
  have own (i : ι) : (w.party i).outlook = ((w.party i).response, (w.party i).reports) := by
    simp only [Party.outlook, rest i]
  apply Ledger.ext
  · simp [outlook, ledger, free]
  · funext i
    simp [outlook, ledger, own i]
  · funext i
    simp [outlook, ledger, own i]

variable [DecidableEq ι] {plan : Plan ι} {w v : World ι} {i j : ι} {p : Party}

@[simp] theorem put_self : (w.put i p).party i = p := by simp [put]

theorem put_of_ne (other : j ≠ i) : (w.put i p).party j = w.party j := by
  simp [put, Function.update_of_ne other]

@[simp] theorem put_bag : (w.put i p).bag = w.bag := rfl

@[simp] theorem put_holder : (w.put i p).holder = w.holder := rfl

/-- A step of one request keeps all sound if it keeps that one sound, leaves the lock to nobody else
and writes the bag only as its holder. -/
theorem Sound.put (sound : w.Sound) (others : v.party = w.party)
    (own : p.Sound (v.holder = some i) v.bag)
    (lock : ∀ j, j ≠ i → (v.holder = some j ↔ w.holder = some j))
    (bag : ∀ j, j ≠ i → w.holder = some j → v.bag = w.bag) : (v.put i p).Sound := by
  intro j
  by_cases same : j = i
  · subst same
    rw [put_self]
    exact own
  · rw [put_of_ne same, others]
    exact (sound j).frame (lock j same) (bag j same)

/-- Only the outlook of the request that makes a step becomes another. -/
theorem outlook_own (others : v.party = w.party) :
    (v.put i p).outlook.response = Function.update w.outlook.response i p.outlook.1 ∧
      (v.put i p).outlook.reports = Function.update w.outlook.reports i p.outlook.2 := by
  have each (j : ι) :
      ((v.put i p).party j).outlook = if j = i then p.outlook else (w.party j).outlook := by
    by_cases same : j = i
    · subst same
      rw [put_self, if_pos rfl]
    · rw [put_of_ne same, others, if_neg same]
  constructor
  · funext j
    rw [Function.update_apply]
    exact (congrArg Prod.fst (each j)).trans (apply_ite Prod.fst _ _ _)
  · funext j
    rw [Function.update_apply]
    exact (congrArg Prod.snd (each j)).trans (apply_ite Prod.snd _ _ _)

/-- A step keeps the outlook if it keeps that of the request and that of the bag. -/
theorem outlook_put (others : v.party = w.party) (own : p.outlook = (w.party i).outlook)
    (bag : (v.put i p).outlook.bag = w.outlook.bag) : (v.put i p).outlook = w.outlook := by
  obtain ⟨response, reports⟩ := outlook_own (i := i) (p := p) others
  rw [own] at response reports
  apply Ledger.ext
  · exact bag
  · exact response.trans (Function.update_eq_self i w.outlook.response)
  · exact reports.trans (Function.update_eq_self i w.outlook.reports)

/-- The first step with a snippet is taking the lock, which must be free. -/
theorem take_of_idle (idle : (w.party i).phase = .idle) (moved : w.advance plan i = some v) :
    ∃ job, plan i (w.party i).reports = some job ∧ w.holder = none ∧
      v = { w with holder := some i }.put i { w.party i with
        phase := .copied job { data := w.bag, response := (w.party i).response } } := by
  simp only [advance, idle] at moved
  split at moved
  · next job next free => exact ⟨job, next, free, (Option.some.inj moved).symm⟩
  · cases moved

/-- A request that takes the lock is to come to what its snippet comes to when nothing comes
between. -/
theorem take_step {job : Job} (sound : w.Sound) (idle : (w.party i).phase = .idle)
    (next : plan i (w.party i).reports = some job) (free : w.holder = none)
    (eq : v = { w with holder := some i }.put i { w.party i with
      phase := .copied job { data := w.bag, response := (w.party i).response } }) :
    v.Sound ∧ w.outlook.turn plan i = some v.outlook := by
  subst eq
  constructor
  · refine sound.put rfl ⟨rfl, rfl, rfl⟩ ?_ ?_
    · intro j other
      simp [free, Ne.symm other]
    · intro j _ held
      cases free.symm.trans held
  · have own : (w.party i).outlook = ((w.party i).response, (w.party i).reports) := by
      simp only [Party.outlook, idle]
    have bag : w.outlook.bag = w.bag := by simp [outlook, free]
    have reports : w.outlook.reports i = (w.party i).reports := congrArg Prod.snd own
    have response : w.outlook.response i = (w.party i).response := congrArg Prod.fst own
    simp only [Ledger.turn, reports, next, response, bag, outcome_runSnippet, Option.bind_eq_bind,
      Option.bind_some]
    obtain ⟨responses, told⟩ := outlook_own (w := w) (v := { w with holder := some i }) (i := i)
      (p := { w.party i with
        phase := .copied job { data := w.bag, response := (w.party i).response } }) rfl
    refine congrArg some (Ledger.ext ?_ responses.symm told.symm)
    simp [outlook, Phase.bag]

omit [DecidableEq ι] in
theorem holder_ne (held : w.holder = some i) (other : j ≠ i) : w.holder ≠ some j := by
  rw [held]
  exact fun eq => other (Option.some.inj eq).symm

/-- Who does not hold the lock changes nothing about what the bag will be. -/
theorem outlook_bag_of_free (free : w.holder ≠ some i) (p : Party) :
    (w.put i p).outlook.bag = w.outlook.bag := by
  cases held : w.holder with
  | none => simp [outlook, held]
  | some j =>
    have other : j ≠ i := by
      rintro rfl
      exact free held
    simp [outlook, held, put_of_ne other]

variable {job : Job} {copy : State} {finish : Finish}

/-- Running on the copies. -/
theorem run_step (sound : w.Sound) (phase : (w.party i).phase = .copied job copy)
    (moved : w.advance plan i = some v) : v.Sound ∧ v.outlook = w.outlook := by
  have own := sound i
  simp only [Party.Sound, phase] at own
  obtain ⟨held, current⟩ := own
  simp only [advance, phase, Option.some.injEq] at moved
  subst moved
  refine ⟨sound.put rfl ⟨held, current⟩ (fun _ _ => Iff.rfl) (fun _ _ _ => rfl), ?_⟩
  refine outlook_put (w := w) rfl ?_ ?_
  · simp only [Party.outlook, phase]
  · simp [outlook, held, phase, Phase.bag]

/-- Writing the bag, which may be refused. -/
theorem write_step (sound : w.Sound) (phase : (w.party i).phase = .ran job copy finish)
    (moved : w.advance plan i = some v) : v.Sound ∧ v.outlook = w.outlook := by
  have own := sound i
  simp only [Party.Sound, phase] at own
  obtain ⟨held, current, response⟩ := own
  simp only [advance, phase] at moved
  cases written : committedData job.code w.bag (finish.binding "data") with
  | error f =>
    rw [written] at moved
    obtain rfl := Option.some.inj moved
    rw [← current] at written
    obtain ⟨told, data, kept⟩ := settle_refused written
    refine ⟨sound.put rfl held (fun _ _ => Iff.rfl) (fun _ _ _ => rfl), ?_⟩
    refine outlook_put (w := w) rfl ?_ ?_
    · simp [Party.outlook, phase, told, kept, response]
    · simp [outlook, held, phase, Phase.bag, data, current]
  | ok bag =>
    rw [written] at moved
    obtain rfl := Option.some.inj moved
    rw [← current] at written
    refine ⟨sound.put rfl ⟨held, response, bag, written⟩ (fun _ _ => Iff.rfl)
      (fun j other h => absurd h (holder_ne held other)), ?_⟩
    refine outlook_put (w := w) rfl ?_ ?_
    · simp only [Party.outlook, phase]
    · simp [outlook, held, phase, Phase.bag, settle_data written]

/-- Releasing the lock when the bag could not be written. -/
theorem give_up_step {f : Failure} (sound : w.Sound) (phase : (w.party i).phase = .refused f)
    (moved : w.advance plan i = some v) : v.Sound ∧ v.outlook = w.outlook := by
  have held := sound i
  simp only [Party.Sound, phase] at held
  simp only [advance, phase, Option.some.injEq] at moved
  subst moved
  refine ⟨sound.put rfl (by simp [Party.Sound])
    (fun j other => ⟨nofun, fun h => absurd h (holder_ne held other)⟩) (fun _ _ _ => rfl), ?_⟩
  refine outlook_put (w := w) rfl ?_ ?_
  · simp only [Party.outlook, phase]
  · simp [outlook, held, phase, Phase.bag]

/-- Releasing the lock when the bag is written. -/
theorem release_step (sound : w.Sound) (phase : (w.party i).phase = .written job copy finish)
    (moved : w.advance plan i = some v) : v.Sound ∧ v.outlook = w.outlook := by
  have own := sound i
  simp only [Party.Sound, phase] at own
  obtain ⟨held, response, writable⟩ := own
  simp only [advance, phase, Option.some.injEq] at moved
  subst moved
  refine ⟨sound.put rfl ⟨by simp, response, writable⟩
    (fun j other => ⟨nofun, fun h => absurd h (holder_ne held other)⟩) (fun _ _ _ => rfl), ?_⟩
  refine outlook_put (w := w) rfl ?_ ?_
  · simp only [Party.outlook, phase]
  · simp [outlook, held, phase, Phase.bag]

/-- Committing the response, which may be spoilt. -/
theorem commit_step (sound : w.Sound) (phase : (w.party i).phase = .released job copy finish)
    (moved : w.advance plan i = some v) : v.Sound ∧ v.outlook = w.outlook := by
  have own := sound i
  simp only [Party.Sound, phase] at own
  obtain ⟨free, response, bag, written⟩ := own
  simp only [advance, phase] at moved
  cases replied : committedResponse job.code finish.binding copy.response handles with
  | error f =>
    rw [replied] at moved
    obtain rfl := Option.some.inj moved
    obtain ⟨told, -, kept⟩ := settle_spoilt written replied
    refine ⟨sound.put rfl free (fun _ _ => Iff.rfl) (fun _ _ _ => rfl), ?_⟩
    refine outlook_put (w := w) rfl ?_ (outlook_bag_of_free free _)
    simp [Party.outlook, phase, told, kept, response]
  | ok new =>
    rw [replied] at moved
    obtain rfl := Option.some.inj moved
    obtain ⟨told, -, changed⟩ := settle_committed written replied
    refine ⟨sound.put rfl free (fun _ _ => Iff.rfl) (fun _ _ _ => rfl), ?_⟩
    refine outlook_put (w := w) rfl ?_ (outlook_bag_of_free free _)
    simp [Party.outlook, phase, told, changed]

/-- Reporting what the snippet came to. -/
theorem report_step {report : Report} (sound : w.Sound) (phase : (w.party i).phase = .done report)
    (moved : w.advance plan i = some v) : v.Sound ∧ v.outlook = w.outlook := by
  have free := sound i
  simp only [Party.Sound, phase] at free
  simp only [advance, phase, Option.some.injEq] at moved
  subst moved
  refine ⟨sound.put rfl free (fun _ _ => Iff.rfl) (fun _ _ _ => rfl), ?_⟩
  refine outlook_put (w := w) rfl ?_ (outlook_bag_of_free free _)
  simp only [Party.outlook, phase]

/-- Every step but the first with a snippet keeps to the outlook. -/
theorem later_step (sound : w.Sound) (busy : (w.party i).phase ≠ .idle)
    (moved : w.advance plan i = some v) : v.Sound ∧ v.outlook = w.outlook := by
  cases phase : (w.party i).phase with
  | idle => exact absurd phase busy
  | copied => exact run_step sound phase moved
  | ran => exact write_step sound phase moved
  | refused => exact give_up_step sound phase moved
  | written => exact release_step sound phase moved
  | released => exact commit_step sound phase moved
  | done => exact report_step sound phase moved

theorem advance_sound (sound : w.Sound) (moved : w.advance plan i = some v) : v.Sound := by
  by_cases busy : (w.party i).phase = .idle
  · obtain ⟨job, next, free, eq⟩ := take_of_idle busy moved
    exact (take_step sound busy next free eq).1
  · exact (later_step sound busy moved).1

/-- What a schedule leads to is what its turns lead to when they are taken one at a time. -/
theorem follow_serial {schedule turns : List ι} (sound : w.Sound)
    (ran : w.follow plan schedule = some (turns, v)) :
    v.Sound ∧ w.outlook.serial plan turns = some v.outlook := by
  induction schedule generalizing w turns with
  | nil =>
    simp only [follow, Option.some.injEq, Prod.mk.injEq] at ran
    obtain ⟨rfl, rfl⟩ := ran
    exact ⟨sound, rfl⟩
  | cons i schedule ih =>
    simp only [follow, Option.bind_eq_bind, Option.bind_eq_some_iff] at ran
    obtain ⟨u, moved, ⟨later, x⟩, rest, eq⟩ := ran
    simp only [Option.pure_def, Option.some.injEq, Prod.mk.injEq] at eq
    obtain ⟨rfl, rfl⟩ := eq
    obtain ⟨soundEnd, serial⟩ := ih (advance_sound sound moved) rest
    refine ⟨soundEnd, ?_⟩
    by_cases idle : (w.party i).phase = .idle
    · obtain ⟨job, next, free, eq⟩ := take_of_idle idle moved
      obtain ⟨-, turn⟩ := take_step sound idle next free eq
      rw [if_pos (Phase.isIdle_iff.mpr idle), Ledger.serial_cons, turn, Option.bind_some]
      exact serial
    · obtain ⟨-, same⟩ := later_step sound idle moved
      rw [if_neg (mt Phase.isIdle_iff.mp idle), ← same]
      exact serial

/-- A step that changes the bag is the writing of a snippet that started from the bag as it is. -/
theorem written_current (sound : w.Sound) (moved : w.advance plan i = some v)
    (changed : v.bag ≠ w.bag) :
    ∃ job copy finish, (w.party i).phase = .ran job copy finish ∧ w.holder = some i ∧
      copy.data = w.bag := by
  have own := sound i
  cases phase : (w.party i).phase with
  | idle =>
    obtain ⟨job, next, free, rfl⟩ := take_of_idle phase moved
    exact absurd rfl changed
  | ran job copy finish =>
    simp only [Party.Sound, phase] at own
    exact ⟨job, copy, finish, rfl, own.1, own.2.1⟩
  | released job copy finish =>
    simp only [advance, phase] at moved
    split at moved <;>
    · obtain rfl := Option.some.inj moved
      exact absurd rfl changed
  | copied | refused | written | done =>
    simp only [advance, phase, Option.some.injEq] at moved
    subst moved
    exact absurd rfl changed

/-- While a snippet is between its copy and its writing, no other request changes the bag. -/
theorem unwritten_between (sound : w.Sound) {job : Job} {copy : State}
    (copied : (w.party i).phase = .copied job copy ∨
      ∃ finish, (w.party i).phase = .ran job copy finish)
    (other : j ≠ i) (moved : w.advance plan j = some v) : v.bag = w.bag := by
  have held : w.holder = some i := by
    have own := sound i
    rcases copied with phase | ⟨finish, phase⟩ <;>
    · simp only [Party.Sound, phase] at own
      exact own.1
  by_contra changed
  obtain ⟨-, -, -, -, theirs, -⟩ := written_current sound moved changed
  exact other (Option.some.inj (theirs.symm.trans held))

/-- Nobody waits for ever: while a request is not at its end, one of them can make a step. -/
theorem advance_possible (sound : w.Sound) (unfinished : ∃ i, (w.party i).phase ≠ .idle ∨
    (plan i (w.party i).reports).isSome = true) : ∃ i v, w.advance plan i = some v := by
  by_cases rest : w.AtRest
  · obtain ⟨i, busy | next⟩ := unfinished
    · exact absurd (rest i) busy
    · obtain ⟨job, next⟩ := Option.isSome_iff_exists.mp next
      have free : w.holder = none := by
        cases held : w.holder with
        | none => rfl
        | some j =>
          have idle := sound j
          simp only [Party.Sound, rest j] at idle
          exact absurd held idle
      exact ⟨i, _, by simp only [advance, rest i, next, free]; rfl⟩
  · obtain ⟨i, busy⟩ := not_forall.mp rest
    refine ⟨i, ?_⟩
    cases phase : (w.party i).phase with
    | idle => exact absurd phase busy
    | ran job copy finish =>
      simp only [advance, phase]
      split <;> exact ⟨_, rfl⟩
    | released job copy finish =>
      simp only [advance, phase]
      split <;> exact ⟨_, rfl⟩
    | copied | refused | written | done =>
      simp only [advance, phase]
      exact ⟨_, rfl⟩

end World

end RuleService
