import RuleService.Proofs.Traffic
import RuleService.Proofs.Watching

namespace RuleService

open Http

/-- What a reload does, in two steps: it loads the service that the descriptor defines, and swaps it in at some
later point. Between the two the descriptor may change, and other reloads may come and go. -/
inductive Deed (ι : Type) where
  | loaded (i : ι) (service : Service)
  | swapped (i : ι) (service : Service)

/-- A program with all that is asked of it, and what reloads have done so far, in order. -/
structure Busy (ι : Type) where
  program : Running
  stage : ι → Stage
  deeds : List (Deed ι) := []

inductive Turn (ι : Type) where
  /-- The files and the objects become others: the descriptor may change. -/
  | change (files : Files) (objects : String → Except Failure String)
  /-- An errand takes a step. -/
  | step (i : ι)

namespace Deed

variable {ι : Type}

def errand : Deed ι → ι
  | loaded i _ | swapped i _ => i

/-- What an errand does when it goes from one stage to the next. -/
def ofStages (i : ι) : Stage → Stage → List (Deed ι)
  | .loading _ (.ok service), _ => [swapped i service]
  | _, .loading _ (.ok service) => [loaded i service]
  | _, _ => []

/-- The service that is active after some deeds. -/
def active (service : Service) (deeds : List (Deed ι)) : Service :=
  deeds.foldl (fun service deed => match deed with
    | swapped _ other => other
    | loaded .. => service) service

/-- No load comes after this one. -/
def NewestLoad (deeds : List (Deed ι)) (i : ι) (service : Service) : Prop :=
  ∃ front back, deeds = front ++ loaded i service :: back ∧ ∀ j other, loaded j other ∉ back

/-- No swap comes after this one. -/
def LastSwap (deeds : List (Deed ι)) (i : ι) (service : Service) : Prop :=
  ∃ front back, deeds = front ++ swapped i service :: back ∧ ∀ j other, swapped j other ∉ back

/-- One reload has loaded before another, and swaps after it. -/
def Overtaken (deeds : List (Deed ι)) (i : ι) (service : Service) (j : ι) (stale : Service) : Prop :=
  LastSwap deeds j stale ∧
    [loaded j stale, loaded i service, swapped i service, swapped j stale].Sublist deeds

/-- With a swap behind a load, the last swap is behind it. -/
theorem LastSwap.behind {deeds front back : List (Deed ι)} {i j k : ι} {s fresh stale : Service}
    (last : LastSwap deeds j stale) (split : deeds = front ++ loaded i s :: back)
    (later : swapped k fresh ∈ back) :
    ∃ mid late, back = mid ++ swapped j stale :: late ∧ ∀ l other, swapped l other ∉ late := by
  obtain ⟨early, late, split', none⟩ := last
  rcases List.append_eq_append_iff.mp (split'.symm.trans split) with
    ⟨ahead, -, rest⟩ | ⟨ahead, -, rest⟩
  · cases ahead with
    | nil => cases (List.cons.inj rest).1
    | cons deed ahead =>
      refine absurd ?_ (none k fresh)
      rw [(List.cons.inj rest).2]
      simp [later]
  · cases ahead with
    | nil => cases (List.cons.inj rest).1
    | cons deed ahead => exact ⟨ahead, late, (List.cons.inj rest).2, none⟩

end Deed

namespace Busy

variable {ι : Type} [DecidableEq ι] (errand : ι → Errand)

def service (b : Busy ι) : Service := b.program.server.service

def turn (b : Busy ι) : Turn ι → Option (Busy ι)
  | .change files objects =>
    some { b with program.equipment := { b.program.equipment with files, objects } }
  | .step i =>
    (Traffic.advance b.program.setup errand ⟨b.program.server, b.stage⟩ i).map fun t =>
      { program := { b.program with server := t.server }
        stage := t.stage
        deeds := b.deeds ++ Deed.ofStages i (b.stage i) (t.stage i) }

def run (b : Busy ι) (turns : List (Turn ι)) : Option (Busy ι) := turns.foldlM (turn errand) b

/-- All errands are yet to begin. -/
structure Fresh (b : Busy ι) : Prop where
  waiting : ∀ i, b.stage i = .waiting
  nothing : b.deeds = []

/-- A reload that has loaded is yet to swap. -/
def Pending (stage : Stage) : Prop := ∃ n service, stage = .loading n (.ok service)

variable {errand} {setup : Setup} {t u : Traffic ι} {i j : ι} {n : Nat} {s : Service}

omit [DecidableEq ι] in
theorem ofStages_loaded {stage : Stage} (idle : ¬ Pending stage) :
    Deed.ofStages i stage (.loading n (.ok s)) = [.loaded i s] := by
  unfold Deed.ofStages
  split
  · exact absurd ⟨_, _, rfl⟩ idle
  · next found => cases found; rfl
  · next other => exact absurd rfl (other _ _)

omit [DecidableEq ι] in
theorem ofStages_nothing {stage next : Stage} (idle : ¬ Pending stage) (still : ¬ Pending next) :
    Deed.ofStages i stage next = [] := by
  unfold Deed.ofStages
  split
  · exact absurd ⟨_, _, rfl⟩ idle
  · exact absurd ⟨_, _, rfl⟩ still
  · rfl

variable (setup t i) in
/-- Either a reload swaps, or the active service stays and at most a reload loads. -/
inductive Effects (u : Traffic ι) : Prop
  | swap {n : Nat} {s : Service} {answer : Answer} (pending : t.stage i = .loading n (.ok s))
      (ended : u.stage i = .ended answer)
      (deeds : Deed.ofStages i (t.stage i) (u.stage i) = [.swapped i s])
      (service : u.server.service = s)
  | load {n : Nat} {s : Service} {load : Nat → Except ServiceFault Service}
      (idle : ¬ Pending (t.stage i)) (unended : ∀ answer, t.stage i ≠ .ended answer)
      (configured : setup.reloader = some load) (found : load n = .ok s)
      (pending : u.stage i = .loading n (.ok s))
      (deeds : Deed.ofStages i (t.stage i) (u.stage i) = [.loaded i s])
      (service : u.server.service = t.server.service)
  | other (idle : ¬ Pending (t.stage i)) (unended : ∀ answer, t.stage i ≠ .ended answer)
      (still : ¬ Pending (u.stage i)) (deeds : Deed.ofStages i (t.stage i) (u.stage i) = [])
      (service : u.server.service = t.server.service)

theorem Effects.of_put {server : Server} {stage next : Stage} (here : t.stage i = stage)
    (idle : ¬ Pending stage) (unended : ∀ answer, stage ≠ .ended answer) (still : ¬ Pending next)
    (service : server.service = t.server.service) : Effects setup t i (t.put i server next) := by
  have put : (t.put i server next).stage i = next := Traffic.put_stage_self _ _
  refine .other (here ▸ idle) (here ▸ unended) ?_ ?_ service
  · rwa [put]
  · rw [here, put, ofStages_nothing idle still]

omit [DecidableEq ι] in
theorem quiet_of_about (about : Traffic.AboutToReload errand t i) :
    ¬ Pending (t.stage i) ∧ ∀ answer, t.stage i ≠ .ended answer := by
  cases about with
  | direct waiting =>
    rw [waiting]
    exact ⟨nofun, nofun⟩
  | asked begun =>
    rw [begun]
    exact ⟨nofun, nofun⟩

theorem effects_of_advance (moved : t.advance setup errand i = some u) : Effects setup t i u := by
  cases Traffic.step_of_advance moved with
  | refuse waiting => exact .of_put waiting nofun nofun nofun rfl
  | begin waiting => exact .of_put waiting nofun nofun nofun rfl
  | select begun => exact .of_put begun nofun nofun nofun rfl
  | stop begun => exact .of_put begun nofun nofun nofun rfl
  | other begun => exact .of_put begun nofun nofun nofun rfl
  | work serving => exact .of_put serving nofun nofun nofun rfl
  | finish serving => exact .of_put serving nofun nofun nofun rfl
  | keep loading => exact .of_put loading nofun nofun nofun rfl
  | unable about =>
    obtain ⟨idle, unended⟩ := quiet_of_about about
    exact .of_put rfl idle unended nofun rfl
  | swap loading =>
    refine .swap loading (Traffic.put_stage_self _ _) ?_ rfl
    rw [loading]
    rfl
  | @load load about configured =>
    obtain ⟨idle, unended⟩ := quiet_of_about about
    cases found : load t.server.reloads with
    | error => exact .of_put rfl idle unended nofun rfl
    | ok s =>
      refine .load idle unended configured found (Traffic.put_stage_self _ _) ?_ rfl
      rw [Traffic.put_stage_self, ofStages_loaded idle]

/-- The deeds of one errand at its stage. -/
inductive Own (i : ι) : Stage → List (Deed ι) → Prop
  | nothing {stage : Stage} (idle : ¬ Pending stage) : Own i stage []
  | loaded {n : Nat} {s : Service} : Own i (.loading n (.ok s)) [.loaded i s]
  | swapped {answer : Answer} {s : Service} : Own i (.ended answer) [.loaded i s, .swapped i s]

theorem Own.advance {deeds : List (Deed ι)} (own : Own i (t.stage i) deeds)
    (moved : t.advance setup errand i = some u) :
    Own i (u.stage i) (deeds ++ Deed.ofStages i (t.stage i) (u.stage i)) := by
  cases effects_of_advance moved with
  | swap pending ended done =>
    rw [done, ended]
    rw [pending] at own
    cases own with
    | nothing idle => exact absurd ⟨_, _, rfl⟩ idle
    | loaded => exact .swapped
  | load idle unended configured found pending done =>
    rw [done, pending]
    generalize t.stage i = stage at *
    cases own with
    | nothing => exact .loaded
    | loaded => exact absurd ⟨_, _, rfl⟩ idle
    | swapped => exact absurd rfl (unended _)
  | other idle unended still done =>
    rw [done, List.append_nil]
    generalize t.stage i = stage at *
    cases own with
    | nothing => exact .nothing still
    | loaded => exact absurd ⟨_, _, rfl⟩ idle
    | swapped => exact absurd rfl (unended _)

theorem active_advance (moved : t.advance setup errand i = some u) :
    u.server.service = Deed.active t.server.service (Deed.ofStages i (t.stage i) (u.stage i)) := by
  cases effects_of_advance moved with
  | swap pending ended done service => rw [done, service]; rfl
  | load idle unended configured found pending done service => rw [done, service]; rfl
  | other idle unended still done service => rw [done, service]; rfl

omit [DecidableEq ι] in
theorem errand_of_mem_ofStages {stage next : Stage} {deed : Deed ι}
    (listed : deed ∈ Deed.ofStages i stage next) : deed.errand = i := by
  unfold Deed.ofStages at listed
  split at listed
  · rw [List.mem_singleton.mp listed]
    rfl
  · rw [List.mem_singleton.mp listed]
    rfl
  · cases listed

/-- What is loaded is what the reloader finds. -/
theorem found_of_mem_ofStages (moved : t.advance setup errand i = some u)
    (listed : .loaded j s ∈ Deed.ofStages i (t.stage i) (u.stage i)) :
    j = i ∧ ∃ n load, setup.reloader = some load ∧ load n = .ok s := by
  cases effects_of_advance moved with
  | swap pending ended done =>
    rw [done] at listed
    cases List.mem_singleton.mp listed
  | load idle unended configured found pending done =>
    rw [done] at listed
    cases List.mem_singleton.mp listed
    exact ⟨rfl, _, _, configured, found⟩
  | other idle unended still done =>
    rw [done] at listed
    cases listed

omit [DecidableEq ι] in
theorem active_append (service : Service) (front back : List (Deed ι)) :
    Deed.active service (front ++ back) = Deed.active (Deed.active service front) back :=
  List.foldl_append

variable {start b c : Busy ι} {turns : List (Turn ι)} {next : Turn ι}

variable (errand start turns) in
/-- What a run keeps: the deeds of each errand fit its stage, the last swap has made the active service,
and a load has found what the descriptor defined at that moment. -/
structure Kept (b : Busy ι) : Prop where
  own : ∀ i, Own i (b.stage i) (b.deeds.filter (·.errand = i))
  active : b.service = Deed.active start.service b.deeds
  found : ∀ i s, .loaded i s ∈ b.deeds → ∃ front back mid, turns = front ++ .step i :: back ∧
    start.run errand front = some mid ∧ mid.program.defined = .ok s

theorem Kept.turn (kept : Kept errand start turns b) (reached : start.run errand turns = some b)
    (moved : b.turn errand next = some c) : Kept errand start (turns ++ [next]) c := by
  have earlier : ∀ i s, .loaded i s ∈ b.deeds → ∃ front back mid,
      turns ++ [next] = front ++ .step i :: back ∧ start.run errand front = some mid ∧
        mid.program.defined = .ok s := by
    intro i s listed
    obtain ⟨front, back, mid, split, came, defined⟩ := kept.found i s listed
    exact ⟨front, back ++ [next], mid, by simp [split], came, defined⟩
  cases next with
  | change files objects =>
    obtain rfl := Option.some.inj moved
    exact ⟨kept.own, kept.active, earlier⟩
  | step i =>
    obtain ⟨t, stepped, rfl⟩ := Option.map_eq_some_iff.mp moved
    refine ⟨fun j => ?_, ?_, fun j s listed => ?_⟩
    · rw [List.filter_append]
      by_cases same : j = i
      · subst same
        have all : (Deed.ofStages j (b.stage j) (t.stage j)).filter (·.errand = j) =
            Deed.ofStages j (b.stage j) (t.stage j) := by
          apply List.filter_eq_self.mpr
          intro deed listed
          simpa using errand_of_mem_ofStages listed
        rw [all]
        exact (kept.own j).advance stepped
      · have none : (Deed.ofStages i (b.stage i) (t.stage i)).filter (·.errand = j) = [] := by
          apply List.filter_eq_nil_iff.mpr
          intro deed listed
          simpa [errand_of_mem_ofStages listed] using Ne.symm same
        have still : t.stage j = b.stage j := Traffic.stage_advance_of_ne stepped same
        rw [none, List.append_nil]
        change Own j (t.stage j) _
        rw [still]
        exact kept.own j
    · rw [active_append, ← kept.active]
      exact active_advance stepped
    · rcases List.mem_append.mp listed with listed | listed
      · exact earlier j s listed
      · obtain ⟨rfl, n, load, configured, found⟩ := found_of_mem_ofStages stepped listed
        obtain rfl := Option.some.inj configured
        exact ⟨turns, [], b, rfl, reached, found⟩

theorem run_cons (moved : b.turn errand next = some c) :
    b.run errand (next :: turns) = c.run errand turns := by
  simp [run, moved]

variable (errand start) in
theorem run_append (front back : List (Turn ι)) :
    start.run errand (front ++ back) = (start.run errand front).bind (·.run errand back) := by
  simp [run, List.foldlM_append]

theorem run_snoc (turns : List (Turn ι)) (next : Turn ι) :
    start.run errand (turns ++ [next]) = (start.run errand turns).bind (turn errand · next) := by
  rw [run_append]
  simp [run]

/-- This is kept from a fresh start on: by induction from the end of the run, since a load is told with all
turns before it. -/
theorem Fresh.kept (fresh : start.Fresh) (reached : start.run errand turns = some b) :
    Kept errand start turns b := by
  induction turns using List.reverseRecOn generalizing b with
  | nil =>
    obtain rfl : start = b := Option.some.inj reached
    refine ⟨fun i => ?_, ?_, fun i s listed => ?_⟩
    · rw [fresh.waiting, fresh.nothing]
      exact .nothing nofun
    · rw [fresh.nothing]
      rfl
    · rw [fresh.nothing] at listed
      cases listed
  | append_singleton turns next ih =>
    rw [run_snoc, Option.bind_eq_some_iff] at reached
    obtain ⟨mid, before, moved⟩ := reached
    exact (ih before).turn before moved

variable {deeds : List (Deed ι)} {fresh stale : Service}

omit [DecidableEq ι] in
theorem active_of_unswapped {service : Service} (none : ∀ i s, .swapped i s ∉ deeds) :
    Deed.active service deeds = service := by
  induction deeds with
  | nil => rfl
  | cons deed deeds ih =>
    have rest := ih fun i s listed => none i s (.tail _ listed)
    cases deed with
    | loaded => exact rest
    | swapped i s => exact absurd List.mem_cons_self (none i s)

omit [DecidableEq ι] in
theorem active_of_lastSwap {service : Service} (last : Deed.LastSwap deeds j stale) :
    Deed.active service deeds = stale := by
  obtain ⟨front, back, rfl, none⟩ := last
  rw [active_append]
  exact active_of_unswapped none

omit [DecidableEq ι] in
theorem exists_lastSwap (listed : .swapped i fresh ∈ deeds) :
    ∃ j stale, Deed.LastSwap deeds j stale := by
  induction deeds using List.reverseRecOn with
  | nil => cases listed
  | append_singleton deeds deed ih =>
    cases deed with
    | swapped j stale => exact ⟨j, stale, deeds, [], rfl, nofun⟩
    | loaded k s =>
      have before : .swapped i fresh ∈ deeds := by simpa using listed
      obtain ⟨j, stale, front, back, rfl, none⟩ := ih before
      refine ⟨j, stale, front, back ++ [.loaded k s], by simp, fun l other listed => ?_⟩
      exact none l other (by simpa using listed)

/-- An errand that has done something and is not pending has loaded and swapped one service. -/
theorem Kept.deeds_eq (kept : Kept errand start turns b) (idle : ∀ i, ¬ Pending (b.stage i)) (i : ι)
    {deed : Deed ι} (listed : deed ∈ b.deeds) (here : deed.errand = i) :
    ∃ s, b.deeds.filter (·.errand = i) = [.loaded i s, .swapped i s] := by
  have own := kept.own i
  have inside : deed ∈ b.deeds.filter (·.errand = i) := by simpa [here] using listed
  generalize b.deeds.filter (·.errand = i) = deeds at own inside
  generalize ended : b.stage i = stage at own
  cases own with
  | nothing => cases inside
  | loaded => exact absurd ⟨_, _, ended⟩ (idle i)
  | swapped => exact ⟨_, rfl⟩

/-- What an errand has loaded it swaps later. -/
theorem Kept.swapped_after (kept : Kept errand start turns b) (idle : ∀ i, ¬ Pending (b.stage i))
    {front back : List (Deed ι)} (split : b.deeds = front ++ .loaded i fresh :: back) :
    .swapped i fresh ∈ back := by
  have loaded : .loaded i fresh ∈ b.deeds := by simp [split]
  obtain ⟨s, whole⟩ := kept.deeds_eq idle i loaded rfl
  have own : decide ((Deed.loaded i fresh).errand = i) = true := decide_eq_true rfl
  rw [split, List.filter_append, List.filter_cons, if_pos own] at whole
  cases before : front.filter (·.errand = i) with
  | nil =>
    rw [before, List.nil_append] at whole
    obtain ⟨⟨⟩, rest⟩ := List.cons.inj whole
    have inside : .swapped i fresh ∈ back.filter (·.errand = i) := by
      rw [rest]
      exact List.mem_cons_self
    exact List.mem_of_mem_filter inside
  | cons deed deeds =>
    rw [before, List.cons_append] at whole
    have inside : .loaded i fresh ∈ [Deed.swapped i s] := by
      rw [← (List.cons.inj whole).2]
      simp
    cases List.mem_singleton.mp inside

/-- What an errand swaps it has loaded, and it has loaded nothing else. -/
theorem Kept.loaded_of_swapped (kept : Kept errand start turns b)
    (idle : ∀ i, ¬ Pending (b.stage i)) (listed : .swapped j stale ∈ b.deeds) :
    .loaded j stale ∈ b.deeds ∧ ∀ s, .loaded j s ∈ b.deeds → s = stale := by
  obtain ⟨s, whole⟩ := kept.deeds_eq idle j listed rfl
  have inside : ∀ deed ∈ b.deeds, deed.errand = j → deed ∈ [.loaded j s, .swapped j s] := by
    intro deed member own
    rw [← whole, List.mem_filter]
    exact ⟨member, decide_eq_true own⟩
  obtain rfl : stale = s := by simpa using inside _ listed rfl
  constructor
  · have first : .loaded j stale ∈ b.deeds.filter (·.errand = j) := by
      rw [whole]
      exact List.mem_cons_self
    exact List.mem_of_mem_filter first
  · intro other member
    simpa using inside _ member rfl

/-- Whoever swaps last found what the newest load found, or has been overtaken by it. -/
theorem Kept.overtaken (kept : Kept errand start turns b) (idle : ∀ i, ¬ Pending (b.stage i))
    (newest : Deed.NewestLoad b.deeds i fresh) (last : Deed.LastSwap b.deeds j stale)
    (differ : stale ≠ fresh) : Deed.Overtaken b.deeds i fresh j stale := by
  refine ⟨last, ?_⟩
  obtain ⟨front, back, split, unloaded⟩ := newest
  have second : .swapped i fresh ∈ back := kept.swapped_after idle split
  obtain ⟨mid, late, rest, unswapped⟩ := last.behind split second
  have swapped : .swapped j stale ∈ b.deeds := by simp [split, rest]
  obtain ⟨loaded, once⟩ := kept.loaded_of_swapped idle swapped
  have other : j ≠ i := by
    rintro rfl
    exact differ (once fresh (by simp [split])).symm
  have first : .loaded j stale ∈ front := by
    rw [split, List.mem_append, List.mem_cons] at loaded
    obtain before | same | after := loaded
    · exact before
    · exact absurd (Deed.loaded.inj same).1 other
    · exact absurd after (unloaded j stale)
  have third : .swapped i fresh ∈ mid := by
    rw [rest, List.mem_append, List.mem_cons] at second
    obtain before | same | after := second
    · exact before
    · exact absurd (Deed.swapped.inj same).1.symm other
    · exact absurd after (unswapped i fresh)
  rw [split, rest]
  have tail := (List.singleton_sublist.mpr third).append
    (List.Sublist.cons_cons (Deed.swapped j stale) late.nil_sublist)
  exact (List.singleton_sublist.mpr first).append (tail.cons_cons _)

variable (errand start turns) in
/-- The service of the newest load stays active unless one that was loaded before it was swapped in after it,
and then that one is active. A load finds what the descriptor defines at that moment, and without any the
service is the one at the start. -/
structure NewestStays (b : Busy ι) : Prop where
  found : ∀ i s, .loaded i s ∈ b.deeds → ∃ front back mid, turns = front ++ .step i :: back ∧
    start.run errand front = some mid ∧ mid.program.defined = .ok s
  unloaded : (∀ i s, .loaded i s ∉ b.deeds) → b.service = start.service
  newest_iff : ∀ i fresh, Deed.NewestLoad b.deeds i fresh → (b.service = fresh ↔
    ¬ ∃ j stale, stale ≠ fresh ∧ Deed.Overtaken b.deeds i fresh j stale)
  overtaken : ∀ i fresh, Deed.NewestLoad b.deeds i fresh → ∀ j stale,
    Deed.Overtaken b.deeds i fresh j stale → b.service = stale

variable (errand) in
/-- So it is at the end of every run with no reload pending, whatever steps come between those of a reload. -/
theorem run_newest_stays_iff (begun : start.Fresh) (reached : start.run errand turns = some b)
    (idle : ∀ i, ¬ Pending (b.stage i)) : NewestStays errand start turns b := by
  have kept := begun.kept reached
  have swapped : ∀ {j stale}, Deed.LastSwap b.deeds j stale → b.service = stale := fun last => by
    rw [kept.active, active_of_lastSwap last]
  refine ⟨kept.found, fun unloaded => ?_, fun i fresh newest => ⟨?_, fun inOrder => ?_⟩, ?_⟩
  · rw [kept.active, active_of_unswapped]
    intro i s listed
    exact unloaded i s (kept.loaded_of_swapped idle listed).1
  · rintro active ⟨j, stale, differ, last, -⟩
    exact differ ((swapped last).symm.trans active)
  · have ⟨front, back, split, _⟩ := newest
    have listed : .swapped i fresh ∈ b.deeds := by
      rw [split]
      simp [kept.swapped_after idle split]
    obtain ⟨j, stale, last⟩ := exists_lastSwap listed
    rw [swapped last]
    by_contra differ
    exact inOrder ⟨j, stale, differ, kept.overtaken idle newest last differ⟩
  · intro i fresh newest j stale overtaken
    exact swapped overtaken.1

/-- A program whose descriptor is empty. -/
def emptied : Busy Bool := ⟨(Watched.greeter "\x7b\x7d" {}).program, fun _ => .waiting, []⟩

/-- A request to reload, and a watcher that reloads. -/
def visitors : Bool → Errand
  | true => .call "" Watched.reloading
  | false => .reload

/-- The request loads. Then there is a greeting in the descriptor, and the watcher loads. -/
def crossing : List (Turn Bool) :=
  [.step true, .step true,
    .change (Watched.desk Watched.greeting) fun path => .error (.fileNotFound path), .step false]

theorem turn_begins {time : String} {call : Call} (waiting : b.stage i = .waiting)
    (asks : errand i = .call time call) (small : ¬ Call.bodyLimit < call.body.size) :
    b.turn errand (.step i) =
      some { b with stage := Function.update b.stage i (.begun b.service) } := by
  simp [turn, Traffic.advance, waiting, asks, small, Traffic.put, Deed.ofStages, service]

theorem advance_of_about (about : Traffic.AboutToReload errand t i) :
    t.advance setup errand i = some (t.startReload setup errand i) := by
  cases about with
  | direct waiting asks => simp [Traffic.advance, waiting, asks]
  | @asked time call taken begun asks unmatched reads path =>
    have reading := (Traffic.isReading_iff _).mpr reads
    have purpose : Server.purpose taken call.method call.uri.path = .reload := by
      rw [Server.purpose, unmatched]
      simp [reading, path]
    simp [Traffic.advance, begun, asks, purpose]

theorem turn_loads (about : Traffic.AboutToReload errand ⟨b.program.server, b.stage⟩ i)
    (defined : b.program.defined = .ok s) : b.turn errand (.step i) =
      some { program := { b.program with
               server := { b.program.server with reloads := b.program.server.reloads + 1 } }
             stage := Function.update b.stage i (.loading b.program.server.reloads (.ok s))
             deeds := b.deeds ++ [.loaded i s] } := by
  have configured : b.program.setup.reloader = some fun _ => b.program.defined := rfl
  have idle : ¬ Pending (b.stage i) := (quiet_of_about about).1
  simp only [turn, advance_of_about about, Traffic.startReload, configured, Traffic.put, defined,
    Option.map_some, Function.update_self, ofStages_loaded idle]

theorem turn_swaps (pending : b.stage i = .loading n (.ok s)) : b.turn errand (.step i) =
    some { program := { b.program with server := b.program.server.activate s }
           stage := Function.update b.stage i (.ended ((errand i).told (.ok s.size)))
           deeds := b.deeds ++ [.swapped i s] } := by
  simp [turn, Traffic.advance, pending, Traffic.put, Deed.ofStages]

/-- A request asks for a reload and loads. -/
theorem run_asked {b : Busy Bool} {old : Service} (waiting : b.stage true = .waiting)
    (unmatched : b.service.find "GET" "/_reload" = none) (defined : b.program.defined = .ok old) :
    b.run visitors [.step true, .step true] =
      some { program := { b.program with
               server := { b.program.server with reloads := b.program.server.reloads + 1 } }
             stage := Function.update b.stage true (.loading b.program.server.reloads (.ok old))
             deeds := b.deeds ++ [.loaded true old] } := by
  have small : ¬ Call.bodyLimit < Watched.reloading.body.size := by decide
  have begins : b.turn visitors (.step true) =
      some { b with stage := Function.update b.stage true (.begun b.service) } :=
    turn_begins waiting rfl small
  have taken : Function.update b.stage true (.begun b.service) true = .begun b.service :=
    Function.update_self _ _ _
  have about : Traffic.AboutToReload visitors
      ⟨b.program.server, Function.update b.stage true (.begun b.service)⟩ true :=
    .asked taken rfl unmatched (.inl rfl) rfl
  have loads := turn_loads (b := { b with stage := Function.update b.stage true (.begun b.service) })
    about defined
  rw [run_cons begins, run_cons loads, Function.update_idem]
  rfl

/-- The descriptor changes, and a watcher loads. -/
theorem run_watched {b : Busy Bool} {files : Files} {objects : String → Except Failure String}
    {new : Service} (waiting : b.stage false = .waiting)
    (defined : { b.program with equipment := { b.program.equipment with files, objects } }.defined =
      .ok new) : ∃ c, b.run visitors [.change files objects, .step false] = some c ∧
      c.stage = Function.update b.stage false (.loading b.program.server.reloads (.ok new)) ∧
      c.deeds = b.deeds ++ [.loaded false new] ∧ c.program.defined = .ok new := by
  have about : Traffic.AboutToReload visitors ⟨b.program.server, b.stage⟩ false := .direct waiting rfl
  have loads := turn_loads
    (b := { b with program.equipment := { b.program.equipment with files, objects } }) about defined
  have changes : b.turn visitors (.change files objects) =
      some { b with program.equipment := { b.program.equipment with files, objects } } := rfl
  rw [run_cons changes, run_cons loads]
  exact ⟨_, rfl, rfl, rfl, defined⟩

theorem crossing_reached : ∃ c, emptied.run visitors crossing = some c ∧
    c.stage true = .loading 0 (.ok {}) ∧ c.stage false = .loading 1 (.ok Watched.greetingService) ∧
    c.deeds = [.loaded true {}, .loaded false Watched.greetingService] ∧
    c.program.defined = .ok Watched.greetingService := by
  have asked := run_asked (b := emptied) rfl rfl (Watched.greeter_defined Watched.empty_defines)
  have split : crossing = [.step true, .step true] ++ [.change (Watched.desk Watched.greeting)
      fun path => .error (.fileNotFound path), .step false] := rfl
  rw [split, run_append, asked, Option.bind_some]
  have defined : (Watched.greeter Watched.greeting {}).program.defined =
      .ok Watched.greetingService := Watched.greeter_defined Watched.greeting_defines
  obtain ⟨c, reached, stage, deeds, defined⟩ := run_watched (b := ⟨{ emptied.program with
      server := { emptied.program.server with reloads := 1 } },
    Function.update emptied.stage true (.loading 0 (.ok {})), [.loaded true {}]⟩) rfl defined
  refine ⟨c, reached, ?_, ?_, deeds, defined⟩
  · rw [stage]
    rfl
  · rw [stage]
    rfl

variable (errand) in
theorem run_swaps {m : Nat} (one : b.stage i = .loading n (.ok s))
    (two : b.stage j = .loading m (.ok fresh)) (other : j ≠ i) :
    b.run errand [.step i, .step j] =
      some { program := { b.program with server := b.program.server.activate fresh }
             stage := Function.update
               (Function.update b.stage i (.ended ((errand i).told (.ok s.size)))) j
               (.ended ((errand j).told (.ok fresh.size)))
             deeds := b.deeds ++ [.swapped i s] ++ [.swapped j fresh] } := by
  rw [run_cons (turn_swaps one), run_cons (turn_swaps ((Function.update_of_ne other _ _).trans two))]
  rfl

theorem emptied_fresh : emptied.Fresh := ⟨fun _ => rfl, rfl⟩

theorem greeting_not_empty : Watched.greetingService ≠ {} := by
  intro same
  exact absurd (congrArg Service.size same) (by decide)

/-- The request swaps last, and the empty service stays active although the descriptor defines another and
the watcher has loaded that one. -/
theorem run_older_stays : emptied.Fresh ∧ ∃ b,
    emptied.run visitors (crossing ++ [.step false, .step true]) = some b ∧
    (∀ i, ¬ Pending (b.stage i)) ∧ Deed.NewestLoad b.deeds false Watched.greetingService ∧
    b.program.defined = .ok Watched.greetingService ∧ b.service = {} ∧
    Watched.greetingService ≠ {} := by
  obtain ⟨b, reached, request, watcher, deeds, defined⟩ := crossing_reached
  rw [run_append, reached, Option.bind_some, run_swaps visitors watcher request (by decide)]
  refine ⟨emptied_fresh, _, rfl, fun i => ?_, ?_, defined, rfl, greeting_not_empty⟩
  · cases i <;> exact nofun
  · refine ⟨[.loaded true {}], [.swapped false Watched.greetingService, .swapped true {}],
      by simp [deeds], fun j other listed => ?_⟩
    simp at listed

/-- The watcher swaps last, and nothing has been overtaken. -/
theorem run_newest_stays_in_order : emptied.Fresh ∧ ∃ b,
    emptied.run visitors (crossing ++ [.step true, .step false]) = some b ∧
    (∀ i, ¬ Pending (b.stage i)) ∧ Deed.NewestLoad b.deeds false Watched.greetingService ∧
    b.service = Watched.greetingService ∧
    ¬ ∃ j stale, stale ≠ Watched.greetingService ∧
      Deed.Overtaken b.deeds false Watched.greetingService j stale := by
  obtain ⟨b, reached, request, watcher, deeds, defined⟩ := crossing_reached
  have swapped := run_swaps visitors request watcher (by decide)
  have idle : ∀ i, ¬ Pending (Function.update (Function.update b.stage true
      (.ended ((visitors true).told (.ok ({} : Service).size)))) false
      (.ended ((visitors false).told (.ok Watched.greetingService.size))) i) := by
    intro i
    cases i <;> exact nofun
  have came := run_append visitors emptied crossing [.step true, .step false]
  rw [reached, Option.bind_some, swapped] at came
  have newest : Deed.NewestLoad (b.deeds ++ [.swapped true {}] ++
      [.swapped false Watched.greetingService]) false Watched.greetingService := by
    refine ⟨[.loaded true {}], [.swapped true {}, .swapped false Watched.greetingService],
      by simp [deeds], fun j other listed => ?_⟩
    simp at listed
  have stays := run_newest_stays_iff visitors emptied_fresh came idle
  exact ⟨emptied_fresh, _, came, idle, newest, rfl, (stays.newest_iff false _ newest).mp rfl⟩

end Busy

end RuleService
