import Mathlib
import RuleService.Proofs.Traffic

namespace RuleService.Http.Traffic

variable {ι : Type} [DecidableEq ι] {setup : Setup} {errand : ι → Errand}
variable {t u origin : Traffic ι} {i j : ι} {schedule : List ι}

/-- Whether an errand is in the middle of a reload. -/
def UnderWay (t : Traffic ι) (i : ι) : Prop := ∃ n result, t.stage i = .loading n result

variable (setup errand)

/-- The service that an errand took: the one that was active when it began. -/
inductive Took (origin : Traffic ι) (schedule : List ι) (i : ι) (taken : Service) : Prop
  | intro {before after : List ι} {u : Traffic ι} (split : schedule = before ++ i :: after)
      (first : i ∉ before) (reached : origin.follow setup errand before = some u)
      (active : u.server.service = taken)

/-- A request for a path that only reads, and that no route of the service it took fits. -/
inductive Unrouted (origin : Traffic ι) (schedule : List ι) (i : ι) (path : String) : Prop
  | intro {time : String} {call : Call} {taken : Service} (asks : errand i = .call time call)
      (small : ¬ Call.bodyLimit < call.body.size)
      (took : Took setup errand origin schedule i taken)
      (unmatched : taken.find call.method call.uri.path = none) (reads : Reads call.method)
      (here : call.uri.path = path)

/-- How an errand has come to its stage. -/
inductive Account (origin : Traffic ι) (schedule : List ι) (i : ι) : Stage → Prop
  | waiting (yet : i ∉ schedule) : Account origin schedule i .waiting
  | begun {time : String} {call : Call} {taken : Service} (asks : errand i = .call time call)
      (small : ¬ Call.bodyLimit < call.body.size)
      (took : Took setup errand origin schedule i taken) : Account origin schedule i (.begun taken)
  | serving {time : String} {call : Call} {taken : Service} {route : Route} {params : Texts}
      {s : State} {rest : Course Unit} (asks : errand i = .call time call)
      (small : ¬ Call.bodyLimit < call.body.size)
      (took : Took setup errand origin schedule i taken)
      (selected : taken.find call.method call.uri.path = some (route, params))
      (given : ∀ code, rest.Reaches setup.host code → RouteSnippet setup.host route.rules code) :
      Account origin schedule i (.serving (call.toRequest params) s rest)
  | loading {n : Nat} {load : Nat → Except ServiceFault Service}
      {result : Except ServiceFault Service}
      (asked : errand i = .reload ∨ Unrouted setup errand origin schedule i "/_reload")
      (configured : setup.reloader = some load) (found : load n = result) :
      Account origin schedule i (.loading n result)
  | ended (answer : Answer) : Account origin schedule i (.ended answer)

variable {setup errand}

theorem Took.unique {taken taken' : Service} (one : Took setup errand origin schedule i taken)
    (other : Took setup errand origin schedule i taken') : taken = taken' := by
  have place {before after : List ι} (split : schedule = before ++ i :: after) (first : i ∉ before) :
      schedule.takeWhile (· != i) = before := by
    rw [split, List.takeWhile_append_of_pos fun j listed => by
      simp only [bne_iff_ne, ne_eq]
      rintro rfl
      exact first listed]
    simp
  obtain ⟨split, first, reached, rfl⟩ := one
  obtain ⟨split', first', reached', rfl⟩ := other
  rw [← place split first, place split' first', reached'] at reached
  rw [Option.some.inj reached]

theorem Took.append {taken : Service} (took : Took setup errand origin schedule i taken)
    (more : List ι) : Took setup errand origin (schedule ++ more) i taken := by
  obtain ⟨rfl, first, reached, active⟩ := took
  exact .intro (List.append_assoc _ _ _) first reached active

theorem Unrouted.append {path : String} (unrouted : Unrouted setup errand origin schedule i path)
    (more : List ι) : Unrouted setup errand origin (schedule ++ more) i path := by
  obtain ⟨asks, small, took, unmatched, reads, here⟩ := unrouted
  exact ⟨asks, small, took.append more, unmatched, reads, here⟩

/-- The steps of others leave an account as it is. -/
theorem Account.append {stage : Stage} (account : Account setup errand origin schedule i stage)
    (other : j ≠ i) : Account setup errand origin (schedule ++ [j]) i stage := by
  cases account with
  | waiting yet => exact .waiting (by simp [yet, Ne.symm other])
  | begun asks small took => exact .begun asks small (took.append _)
  | serving asks small took selected given => exact .serving asks small (took.append _) selected given
  | loading asked configured found => exact .loading (asked.imp_right (·.append _)) configured found
  | ended answer => exact .ended answer

theorem Account.advance (stock : setup.host.commands = Commands.builtIn)
    (account : Account setup errand origin schedule i (t.stage i))
    (reached : origin.follow setup errand schedule = some t)
    (moved : t.advance setup errand i = some u) :
    Account setup errand origin (schedule ++ [i]) i (u.stage i) := by
  cases step_of_advance moved with
  | begin waiting asks small =>
    rw [waiting] at account
    rw [put_stage_self]
    cases account with
    | waiting yet => exact .begun asks small (.intro rfl yet reached rfl)
  | select begun asks selected =>
    rw [begun] at account
    rw [put_stage_self]
    cases account with
    | begun asks' small took =>
      obtain ⟨rfl, rfl⟩ := Errand.call.inj (asks.symm.trans asks')
      exact .serving asks small (took.append _) selected fun code => Course.reaches_route stock
  | load about configured =>
    rw [put_stage_self]
    refine .loading ?_ configured rfl
    cases about with
    | direct waiting asks => exact .inl asks
    | asked begun asks unmatched reads path =>
      rw [begun] at account
      cases account with
      | begun asks' small took =>
        obtain ⟨rfl, rfl⟩ := Errand.call.inj (asks.symm.trans asks')
        exact .inr ⟨asks, small, took.append _, unmatched, reads, path⟩
  | @work request s s' rest work r serving next outcome =>
    rw [serving] at account
    rw [put_stage_self]
    cases account with
    | serving asks small took selected given =>
      refine .serving asks small (took.append _) selected fun code reaches => given code ?_
      cases r with
      | ok rest => exact .of_step next outcome reaches
      | error f => cases reaches
  | _ =>
    rw [put_stage_self]
    exact .ended _

/-- Every errand has an account of how it came to its stage: by induction from the end of the schedule, since an
account tells of all steps so far. -/
theorem account (stock : setup.host.commands = Commands.builtIn)
    (fresh : ∀ i, origin.stage i = .waiting)
    (reached : origin.follow setup errand schedule = some t) (i : ι) :
    Account setup errand origin schedule i (t.stage i) := by
  induction schedule using List.reverseRecOn generalizing t with
  | nil =>
    obtain rfl : origin = t := Option.some.inj reached
    rw [fresh i]
    exact .waiting List.not_mem_nil
  | append_singleton schedule j ih =>
    rw [follow_snoc, Option.bind_eq_some_iff] at reached
    obtain ⟨u, before, moved⟩ := reached
    have earlier := ih before
    by_cases own : i = j
    · subst own
      exact earlier.advance stock before moved
    · rw [stage_advance_of_ne moved own]
      exact earlier.append (Ne.symm own)

variable (setup errand) in
/-- The ways in which a step of an errand changes what all share. -/
inductive Change (origin : Traffic ι) (schedule : List ι) (i : ι) (t u : Traffic ι) : Prop
  | nothing (service : u.server.service = t.server.service) (bag : u.server.data = t.server.data)
      (stopping : u.server.stopping = t.server.stopping)
  | swap {n : Nat} {load : Nat → Except ServiceFault Service} {service : Service}
      (loading : t.stage i = .loading n (.ok service))
      (asked : errand i = .reload ∨ Unrouted setup errand origin schedule i "/_reload")
      (configured : setup.reloader = some load) (loaded : load n = .ok service)
      (whole : u.server = { t.server with service })
  | stop (asked : Unrouted setup errand origin schedule i "/_stop")
      (whole : u.server = { t.server with stopping := true })
  | snippet {time : String} {call : Call} {taken : Service} {route : Route} {params : Texts}
      {code : String} {s : State} (asks : errand i = .call time call)
      (small : ¬ Call.bodyLimit < call.body.size)
      (took : Took setup errand origin schedule i taken)
      (selected : taken.find call.method call.uri.path = some (route, params))
      (given : RouteSnippet setup.host route.rules code) (bag : s.data = t.server.data)
      (ran : Course.BagAfter setup.host (call.toRequest params) code s u.server.data)
      (whole : u.server = { t.server with data := u.server.data })

theorem change_of_advance (stock : setup.host.commands = Commands.builtIn)
    (fresh : ∀ i, origin.stage i = .waiting)
    (reached : origin.follow setup errand schedule = some t)
    (moved : t.advance setup errand i = some u) : Change setup errand origin schedule i t u := by
  have account := account stock fresh reached i
  cases step_of_advance moved with
  | stop begun asks unmatched reads path =>
    rw [begun] at account
    cases account with
    | begun asks' small took =>
      obtain ⟨rfl, rfl⟩ := Errand.call.inj (asks.symm.trans asks')
      exact .stop ⟨asks, small, took, unmatched, reads, path⟩ rfl
  | @work request s s' rest work r serving next outcome =>
    rw [serving] at account
    cases account with
    | serving asks small took selected given =>
      have data := Course.data_step (s := { s with data := t.server.data }) next
      rw [outcome] at data
      obtain same | ⟨code, reaches, ran⟩ := data
      · exact .nothing rfl same rfl
      · exact .snippet asks small took selected (given code reaches) rfl ran rfl
  | swap loading =>
    have here := loading
    rw [loading] at account
    cases account with
    | loading asked configured found => exact .swap here asked configured found rfl
  | _ => exact .nothing rfl rfl rfl

/-- What a step does about reloads: it begins one, ends one, or has nothing to do with any. -/
inductive Reloading (setup : Setup) (i : ι) (t u : Traffic ι) : Prop
  | begins {load : Nat → Except ServiceFault Service} (configured : setup.reloader = some load)
      (before : ¬ t.UnderWay i)
      (after : u.stage i = .loading t.server.reloads (load t.server.reloads))
      (count : u.server.reloads = t.server.reloads + 1)
      (active : u.server.service = t.server.service)
  | ends {n : Nat} {result : Except ServiceFault Service} (before : t.stage i = .loading n result)
      (after : ¬ u.UnderWay i) (count : u.server.reloads = t.server.reloads)
      (active : u.server.service = result.toOption.getD t.server.service)
  | aside (before : ¬ t.UnderWay i) (after : ¬ u.UnderWay i)
      (count : u.server.reloads = t.server.reloads) (active : u.server.service = t.server.service)

omit [DecidableEq ι] in
theorem not_underWay {stage : Stage} (here : t.stage i = stage)
    (other : ∀ n result, stage ≠ .loading n result) : ¬ t.UnderWay i := by
  rintro ⟨n, result, loading⟩
  exact other n result (here.symm.trans loading)

omit [DecidableEq ι] in
theorem AboutToReload.not_underWay (about : AboutToReload errand t i) : ¬ t.UnderWay i := by
  cases about with
  | direct waiting => exact Traffic.not_underWay waiting nofun
  | asked begun => exact Traffic.not_underWay begun nofun

theorem reloading_of_advance (moved : t.advance setup errand i = some u) :
    Reloading setup i t u := by
  cases step_of_advance moved with
  | load about configured =>
    exact .begins configured about.not_underWay (put_stage_self _ _) rfl rfl
  | swap loading => exact .ends loading (not_underWay (put_stage_self _ _) nofun) rfl rfl
  | keep loading => exact .ends loading (not_underWay (put_stage_self _ _) nofun) rfl rfl
  | unable about => exact .aside about.not_underWay (not_underWay (put_stage_self _ _) nofun) rfl rfl
  | refuse here | begin here | select here | stop here | other here | work here | finish here =>
    exact .aside (not_underWay here nofun) (not_underWay (put_stage_self _ _) nofun) rfl rfl

/-- The service that the next step of an errand makes active. -/
def swapped (t : Traffic ι) (i : ι) : Option Service :=
  match t.stage i with
  | .loading _ result => result.toOption
  | _ => none

variable (setup errand) in
/-- The services that a run makes active, in its order: one for each reload that succeeds. -/
def swaps (t : Traffic ι) : List ι → List Service
  | [] => []
  | i :: rest =>
    (t.swapped i).toList ++ ((t.advance setup errand i).map fun u => swaps u rest).getD []

omit [DecidableEq ι] in
theorem swapped_eq_none (before : ¬ t.UnderWay i) : t.swapped i = none := by
  unfold swapped
  split
  · next n result here => exact absurd ⟨n, result, here⟩ before
  · rfl

theorem service_advance (moved : t.advance setup errand i = some u) :
    u.server.service = (t.swapped i).getD t.server.service := by
  cases reloading_of_advance moved with
  | begins configured before after count active =>
    rw [swapped_eq_none before, active]
    rfl
  | ends before after count active =>
    rw [swapped, before, active]
  | aside before after count active =>
    rw [swapped_eq_none before, active]
    rfl

/-- The active service is the one that was swapped in last. -/
theorem service_follow (reached : t.follow setup errand schedule = some u) :
    u.server.service = (swaps setup errand t schedule).getLast?.getD t.server.service := by
  induction schedule generalizing t with
  | nil =>
    obtain rfl : t = u := Option.some.inj reached
    rfl
  | cons i rest ih =>
    have first : (t.advance setup errand i).bind (follow setup errand · rest) = some u := reached
    obtain ⟨v, moved, reached⟩ := Option.bind_eq_some_iff.mp first
    have list : swaps setup errand t (i :: rest) =
        (t.swapped i).toList ++ swaps setup errand v rest := by
      rw [swaps, moved]
      rfl
    rw [ih reached, service_advance moved, list, List.getLast?_append]
    cases (swaps setup errand v rest).getLast? with
    | some service => rfl
    | none => cases t.swapped i <;> rfl

/-- What the reload of a number makes active, if it succeeds. -/
def found (setup : Setup) (n : Nat) : Option Service :=
  setup.reloader.bind fun load => (load n).toOption

/-- The service that is active after the next reloads, taken in their order. -/
def latest (setup : Setup) (service : Service) (first : Nat) : Nat → Service
  | 0 => service
  | k + 1 => (found setup (first + k)).getD (latest setup service first k)

variable (setup errand) in
/-- In no state of a run two reloads are under way. -/
def Apart (origin : Traffic ι) (schedule : List ι) : Prop :=
  ∀ before after t, schedule = before ++ after → origin.follow setup errand before = some t →
    ∀ i j, t.UnderWay i → t.UnderWay j → i = j

/-- The reloads were taken one after the other: the service is what those that have ended came to in
their order, and at most the last is under way. -/
inductive InOrder (setup : Setup) (origin t : Traffic ι) : Prop
  | ended {k : Nat} (none : ∀ i, ¬ t.UnderWay i) (count : t.server.reloads = origin.server.reloads + k)
      (active : t.server.service = latest setup origin.server.service origin.server.reloads k)
  | underWay {k : Nat} {i : ι} {result : Except ServiceFault Service}
      (last : t.stage i = .loading (origin.server.reloads + k) result)
      (finds : result.toOption = found setup (origin.server.reloads + k))
      (only : ∀ j, t.UnderWay j → j = i)
      (count : t.server.reloads = origin.server.reloads + k + 1)
      (active : t.server.service = latest setup origin.server.service origin.server.reloads k)

/-- An errand that is not under way in one state is not in the next, unless it is its step. -/
theorem underWay_advance (moved : t.advance setup errand i = some u) (other : j ≠ i) :
    u.UnderWay j ↔ t.UnderWay j := by
  simp only [UnderWay, stage_advance_of_ne moved other]

theorem InOrder.advance (inOrder : InOrder setup origin t)
    (moved : t.advance setup errand i = some u)
    (apart : ∀ j k, u.UnderWay j → u.UnderWay k → j = k) : InOrder setup origin u := by
  have others {j : ι} (here : u.UnderWay j) (after : ¬ u.UnderWay i) : t.UnderWay j := by
    have other : j ≠ i := by
      rintro rfl
      exact after here
    exact (underWay_advance moved other).mp here
  cases reloading_of_advance moved with
  | @begins load configured before after count active =>
    have finds (n : Nat) : (load n).toOption = found setup n := by
      rw [found, configured, Option.bind_some]
    cases inOrder with
    | @ended k none count' active' =>
      rw [count'] at after count
      exact .underWay after (finds _) (fun j here => apart j i here ⟨_, _, after⟩) count
        (active.trans active')
    | @underWay k i' result last finds' only count' active' =>
      have other : i' ≠ i := by
        rintro rfl
        exact before ⟨_, _, last⟩
      have here : u.UnderWay i' := (underWay_advance moved other).mpr ⟨_, _, last⟩
      exact absurd (apart i' i here ⟨_, _, after⟩) other
  | @ends n result before after count active =>
    cases inOrder with
    | ended none => exact absurd ⟨n, result, before⟩ (none i)
    | @underWay k i' result' last finds only count' active' =>
      obtain rfl := only i ⟨n, result, before⟩
      obtain ⟨rfl, rfl⟩ := Stage.loading.inj (before.symm.trans last)
      refine .ended (k := k + 1) (fun j here => ?_) (count.trans count') ?_
      · exact after (only j (others here after) ▸ here)
      · rw [active, active', latest, finds]
  | aside before after count active =>
    cases inOrder with
    | ended none count' active' =>
      exact .ended (fun j here => none j (others here after)) (count.trans count')
        (active.trans active')
    | @underWay k i' result last finds only count' active' =>
      have other : i' ≠ i := by
        rintro rfl
        exact before ⟨_, _, last⟩
      exact .underWay ((stage_advance_of_ne moved other).trans last) finds
        (fun j here => only j (others here after)) (count.trans count') (active.trans active')

theorem inOrder (fresh : ∀ i, origin.stage i = .waiting) (apart : Apart setup errand origin schedule)
    (reached : origin.follow setup errand schedule = some t) : InOrder setup origin t := by
  induction schedule using List.reverseRecOn generalizing t with
  | nil =>
    obtain rfl : origin = t := Option.some.inj reached
    exact .ended (k := 0) (fun i => not_underWay (fresh i) nofun) rfl rfl
  | append_singleton schedule i ih =>
    have together := apart (schedule ++ [i]) [] t (List.append_nil _).symm reached
    rw [follow_snoc, Option.bind_eq_some_iff] at reached
    obtain ⟨u, before, moved⟩ := reached
    refine (ih (fun first more v split => ?_) before).advance moved together
    exact apart first (more ++ [i]) v (by simp [split])

/-- No errand is past its beginning with a body above the limit, unless it has ended. -/
theorem Account.small {stage : Stage} (account : Account setup errand origin schedule i stage)
    {time : String} {call : Call} (asks : errand i = .call time call) :
    stage = .waiting ∨ (∃ answer, stage = .ended answer) ∨ ¬ Call.bodyLimit < call.body.size := by
  cases account with
  | waiting => exact .inl rfl
  | ended answer => exact .inr (.inl ⟨answer, rfl⟩)
  | begun asks' small | serving asks' small =>
    obtain ⟨rfl, rfl⟩ := Errand.call.inj (asks.symm.trans asks')
    exact .inr (.inr small)
  | loading asked =>
    obtain direct | ⟨asks', small⟩ := asked
    · cases asks.symm.trans direct
    · obtain ⟨rfl, rfl⟩ := Errand.call.inj (asks.symm.trans asks')
      exact .inr (.inr small)

theorem refused_unchanged (stock : setup.host.commands = Commands.builtIn)
    (fresh : ∀ i, origin.stage i = .waiting)
    (reached : origin.follow setup errand schedule = some t)
    (moved : t.advance setup errand i = some u) {time : String} {call : Call}
    (asks : errand i = .call time call) (large : Call.bodyLimit < call.body.size) :
    u.server = t.server ∧ u.stage i = .ended (.reply Server.tooLarge) := by
  obtain waiting | ⟨answer, ended⟩ | small := (account stock fresh reached i).small asks
  · obtain rfl : t.put i t.server (.ended (.reply Server.tooLarge)) = u := by
      simpa [advance, waiting, asks, large] using moved
    exact ⟨rfl, put_stage_self _ _⟩
  · simp [advance, ended] at moved
  · exact absurd large small

theorem failed_unchanged (moved : t.advance setup errand i = some u) {n : Nat} {f : ServiceFault}
    (loading : t.stage i = .loading n (.error f)) : u.server = t.server := by
  obtain rfl : t.put i t.server (.ended ((errand i).told (.error f.message))) = u := by
    simpa [advance, loading] using moved
  rfl

theorem unrouted_unchanged (stock : setup.host.commands = Commands.builtIn)
    (fresh : ∀ i, origin.stage i = .waiting)
    (reached : origin.follow setup errand schedule = some t)
    (moved : t.advance setup errand i = some u) {time : String} {call : Call} {taken : Service}
    (asks : errand i = .call time call)
    (took : Took setup errand origin (schedule ++ [i]) i taken)
    (unmatched : taken.find call.method call.uri.path = none)
    (plain : ¬ (Reads call.method ∧ (call.uri.path = "/_stop" ∨ call.uri.path = "/_reload"))) :
    u.server = t.server := by
  have account := account stock fresh reached i
  cases step_of_advance moved with
  | stop begun asks' unmatched' reads path =>
    obtain ⟨rfl, rfl⟩ := Errand.call.inj (asks.symm.trans asks')
    exact absurd ⟨reads, .inl path⟩ plain
  | load about =>
    cases about with
    | direct waiting asks' => cases asks.symm.trans asks'
    | asked begun asks' unmatched' reads path =>
      obtain ⟨rfl, rfl⟩ := Errand.call.inj (asks.symm.trans asks')
      exact absurd ⟨reads, .inr path⟩ plain
  | work serving =>
    rw [serving] at account
    cases account with
    | serving asks' small took' selected =>
      obtain ⟨rfl, rfl⟩ := Errand.call.inj (asks.symm.trans asks')
      obtain rfl := took.unique (took'.append _)
      cases unmatched.symm.trans selected
  | swap loading =>
    rw [loading] at account
    cases account with
    | loading asked =>
      obtain direct | ⟨asks', small, took', unmatched', reads, path⟩ := asked
      · cases asks.symm.trans direct
      · obtain ⟨rfl, rfl⟩ := Errand.call.inj (asks.symm.trans asks')
        exact absurd ⟨reads, .inr path⟩ plain
  | _ => rfl

/-- What errands that come to a state have changed on the way, in whatever order their steps came. Each
step changes nothing, or swaps in a service that was loaded for a reload, or stops, or is a snippet of the
route that was selected in the service its request took, and changes the bag. So the active service is the
one that was swapped in last; if no two reloads are under way at once, the reloads count in their order. A
body above the limit, a reload that fails and a request that no route fits and that is for neither of the
two paths change nothing at all. -/
structure OnlyChanges (setup : Setup) (errand : ι → Errand) (origin : Traffic ι) (schedule : List ι)
    (t : Traffic ι) : Prop where
  step : ∀ i u, t.advance setup errand i = some u → Change setup errand origin schedule i t u
  service : t.server.service =
    (swaps setup errand origin schedule).getLast?.getD origin.server.service
  ordered : Apart setup errand origin schedule → InOrder setup origin t
  tooLarge : ∀ i u, t.advance setup errand i = some u → ∀ time call, errand i = .call time call →
    Call.bodyLimit < call.body.size →
    u.server = t.server ∧ u.stage i = .ended (.reply Server.tooLarge)
  failed : ∀ i u, t.advance setup errand i = some u → ∀ n f, t.stage i = .loading n (.error f) →
    u.server = t.server
  unrouted : ∀ i u, t.advance setup errand i = some u → ∀ time call taken,
    errand i = .call time call → Took setup errand origin (schedule ++ [i]) i taken →
    taken.find call.method call.uri.path = none →
    ¬ (Reads call.method ∧ (call.uri.path = "/_stop" ∨ call.uri.path = "/_reload")) →
    u.server = t.server

/-- Errands change no more than that, if the commands are the built-in ones: one that was added could do anything
to the bag. -/
theorem follow_changes (stock : setup.host.commands = Commands.builtIn)
    (fresh : ∀ i, origin.stage i = .waiting)
    (reached : origin.follow setup errand schedule = some t) :
    OnlyChanges setup errand origin schedule t where
  step _ _ := change_of_advance stock fresh reached
  service := service_follow reached
  ordered apart := inOrder fresh apart reached
  tooLarge _ _ moved _ _ := refused_unchanged stock fresh reached moved
  failed _ _ moved _ _ := failed_unchanged moved
  unrouted _ _ moved _ _ _ := unrouted_unchanged stock fresh reached moved

/-- A host whose scripts leave a mark in the bag. -/
def marking : Host where
  engine :=
    { expression _ _ := { outcome := .ok none, binding _ := none }
      script _ _ :=
        { outcome := .ok none
          binding name :=
            if name == "data" then some (some (.obj [("seen", .bool true)])) else none } }
  file path := .error (.fileNotFound path)

/-- Every reload finds an empty service. -/
def emptying : Setup where
  host := marking
  reloader := some fun _ => .ok {}

/-- A request for a route that leaves a mark, and a reload. -/
def pair : Bool → Errand
  | true => .call "" { method := "GET", uri := ⟨"/mark", none, some "/mark"⟩ }
  | false => .reload

def marked : Traffic Bool :=
  start { service := ⟨[⟨"/mark", .get, [⟨[], none, some (.statement "mark"), none⟩]⟩]⟩ }

/-- The request takes the service, the reload swaps it, and the request selects its route. -/
def crossing : List Bool := [true, false, false, true]

theorem crossing_reached :
    ∃ t u, marked.follow emptying pair crossing = some t ∧ t.advance emptying pair true = some u ∧
      t.server.service.size = 0 ∧ u.server.data = [("seen", .bool true)] := by
  have swapped : (marked.follow emptying pair crossing).map (·.server.service.size) = some 0 := by
    cbv
  have left : ((marked.follow emptying pair crossing).bind (·.advance emptying pair true)).map
      (·.server.data) = some [("seen", .bool true)] := by
    cbv
  obtain ⟨t, reached, size⟩ := Option.map_eq_some_iff.mp swapped
  rw [reached] at left
  obtain ⟨u, moved, data⟩ := Option.map_eq_some_iff.mp left
  exact ⟨t, u, reached, moved, size, data⟩

theorem follow_changes_crossing :
    emptying.host.commands = Commands.builtIn ∧ (∀ i, marked.stage i = .waiting) ∧
    ∃ t u, marked.follow emptying pair crossing = some t ∧ t.advance emptying pair true = some u ∧
      t.server.service.size = 0 ∧ u.server.data = [("seen", .bool true)] ∧
      Change emptying pair marked crossing true t u ∧
      t.server.service =
        (swaps emptying pair marked crossing).getLast?.getD marked.server.service := by
  have fresh (i : Bool) : marked.stage i = .waiting := rfl
  obtain ⟨t, u, reached, moved, size, data⟩ := crossing_reached
  have only := follow_changes rfl fresh reached
  exact ⟨rfl, fresh, t, u, reached, moved, size, data, only.step true u moved, only.service⟩

end RuleService.Http.Traffic
