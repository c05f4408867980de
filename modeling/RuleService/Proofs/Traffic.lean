import Mathlib.Data.List.Induction
import Mathlib.Logic.Function.Basic
import RuleService.Http.Server
import RuleService.Proofs.Reach

namespace RuleService.Http

/-- What is asked of a server. -/
inductive Errand where
  | call (time : String) (call : Call)
  /-- A reload that no request asks for. -/
  | reload

/-- What comes of an errand. -/
inductive Answer where
  | reply (reply : Reply)
  | reloaded (result : Except String Nat)

/-- How an errand tells of a reload. -/
def Errand.told : Errand → Except String Nat → Answer
  | call _ _, result => .reply (Server.reloadReply result)
  | reload, result => .reloaded result

/-- How far an errand has come. -/
inductive Stage where
  | waiting
  /-- It has taken this service. -/
  | begun (taken : Service)
  /-- Its rules are at work, and this is what is left of the work. -/
  | serving (request : Request) (s : State) (rest : Course Unit)
  /-- The reload of this number is under way, and will find this. -/
  | loading (n : Nat) (found : Except ServiceFault Service)
  | ended (answer : Answer)

/-- What is left of a course after a step. -/
def leftOf {α : Type} : Except Failure (Course α) → Course α
  | .ok rest => rest
  | .error f => .failed f

/-- A server with all that is asked of it. -/
structure Traffic (ι : Type) where
  server : Server
  stage : ι → Stage

namespace Traffic

variable {ι : Type} [DecidableEq ι] (setup : Setup) (errand : ι → Errand)

/-- All errands are yet to begin. -/
def start (server : Server) : Traffic ι := ⟨server, fun _ => .waiting⟩

def put (t : Traffic ι) (i : ι) (server : Server) (stage : Stage) : Traffic ι :=
  ⟨server, Function.update t.stage i stage⟩

/-- A reload begins. -/
def startReload (t : Traffic ι) (i : ι) : Traffic ι :=
  match setup.reloader with
  | none => t.put i t.server (.ended ((errand i).told (.error "reloading is not configured")))
  | some load =>
    t.put i { t.server with reloads := t.server.reloads + 1 }
      (.loading t.server.reloads (load t.server.reloads))

/-- The rules of a request take a step, over the bag as it is now. -/
def serve (t : Traffic ι) (i : ι) (request : Request) (s : State) (rest : Course Unit) :
    Traffic ι :=
  match rest.step setup.host request with
  | none => t.put i t.server (.ended (.reply (.ofResponse (rest.close s.response))))
  | some work =>
    let (r, s) := work.outcome { s with data := t.server.data }
    t.put i { t.server with data := s.data } (.serving request s (leftOf r))

/-- The next step of an errand; none if it has ended. A request takes the active service when it begins, and
stays with it; a snippet takes the bag and gives it back in one step. -/
def advance (t : Traffic ι) (i : ι) : Option (Traffic ι) :=
  match t.stage i, errand i with
  | .waiting, .call _ call =>
    if Call.bodyLimit < call.body.size then
      some (t.put i t.server (.ended (.reply Server.tooLarge)))
    else some (t.put i t.server (.begun t.server.service))
  | .waiting, .reload => some (t.startReload setup errand i)
  | .begun taken, .call time call =>
    match Server.purpose taken call.method call.uri.path with
    | .rules route params =>
      let ctx : Context := { request := call.toRequest params }
      some (t.put i t.server (.serving ctx.request {} (Course.rules ctx route.rules)))
    | .stop =>
      some (t.put i { t.server with stopping := true } (.ended (.reply (Server.stopReply time))))
    | .reload => some (t.startReload setup errand i)
    | .index => some (t.put i t.server (.ended (.reply (Server.indexReply setup))))
    | .nothing => some (t.put i t.server (.ended (.reply .notFound)))
  | .begun _, .reload => none
  | .serving request s rest, _ => some (t.serve setup i request s rest)
  | .loading _ (.ok service), e =>
    some (t.put i (t.server.activate service) (.ended (e.told (.ok service.size))))
  | .loading _ (.error f), e => some (t.put i t.server (.ended (e.told (.error f.message))))
  | .ended _, _ => none

/-- The errands take the steps of a schedule in its order. -/
def follow (t : Traffic ι) (schedule : List ι) : Option (Traffic ι) :=
  schedule.foldlM (advance setup errand) t

/-- Methods that only read. -/
def Reads (method : String) : Prop := method = "GET" ∨ method = "HEAD"

theorem isReading_iff (method : String) : Server.isReading method = true ↔ Reads method := by
  simp [Server.isReading, Reads]

theorem purpose_cases (service : Service) (method path : String) :
    (∃ route params, service.find method path = some (route, params) ∧
      Server.purpose service method path = .rules route params) ∨
    (service.find method path = none ∧ Reads method ∧ path = "/_stop" ∧
      Server.purpose service method path = .stop) ∨
    (service.find method path = none ∧ Reads method ∧ path = "/_reload" ∧
      Server.purpose service method path = .reload) ∨
    (service.find method path = none ∧ ¬ (Reads method ∧ (path = "/_stop" ∨ path = "/_reload")) ∧
      (Server.purpose service method path = .index ∨
        Server.purpose service method path = .nothing)) := by
  unfold Server.purpose
  cases found : service.find method path with
  | some selected => exact .inl ⟨selected.1, selected.2, rfl, rfl⟩
  | none =>
    refine .inr ?_
    have reads := isReading_iff method
    by_cases reading : Server.isReading method = true
    · have method := reads.mp reading
      by_cases stop : path = "/_stop"
      · exact .inl ⟨rfl, method, stop, by simp [reading, stop]⟩
      · by_cases reload : path = "/_reload"
        · exact .inr (.inl ⟨rfl, method, reload, by simp [reading, reload]⟩)
        · refine .inr (.inr ⟨rfl, by simp [stop, reload], ?_⟩)
          by_cases root : (path == "/" && !service.hasPath "/") = true
          · exact .inl (by simp [reading, stop, reload, root])
          · exact .inr (by simp [reading, stop, reload, root])
    · exact .inr (.inr ⟨rfl, fun reads' => reading (reads.mpr reads'.1), .inr (by simp [reading])⟩)

/-- An errand that is about to reload: it is nothing else, or a request that no route of the service it
has taken fits. -/
inductive AboutToReload (t : Traffic ι) (i : ι) : Prop
  | direct (waiting : t.stage i = .waiting) (asks : errand i = .reload)
  | asked {time : String} {call : Call} {taken : Service} (begun : t.stage i = .begun taken)
      (asks : errand i = .call time call)
      (unmatched : taken.find call.method call.uri.path = none) (reads : Reads call.method)
      (path : call.uri.path = "/_reload")

/-- What a step of an errand can be. -/
inductive Step (t : Traffic ι) (i : ι) : Traffic ι → Prop
  | refuse {time : String} {call : Call} (waiting : t.stage i = .waiting)
      (asks : errand i = .call time call) (large : Call.bodyLimit < call.body.size) :
      Step t i (t.put i t.server (.ended (.reply Server.tooLarge)))
  | begin {time : String} {call : Call} (waiting : t.stage i = .waiting)
      (asks : errand i = .call time call) (small : ¬ Call.bodyLimit < call.body.size) :
      Step t i (t.put i t.server (.begun t.server.service))
  | select {time : String} {call : Call} {taken : Service} {route : Route} {params : Texts}
      (begun : t.stage i = .begun taken) (asks : errand i = .call time call)
      (selected : taken.find call.method call.uri.path = some (route, params)) :
      Step t i (t.put i t.server (.serving (call.toRequest params) {}
        (Course.rules { request := call.toRequest params } route.rules)))
  | stop {time : String} {call : Call} {taken : Service} (begun : t.stage i = .begun taken)
      (asks : errand i = .call time call)
      (unmatched : taken.find call.method call.uri.path = none) (reads : Reads call.method)
      (path : call.uri.path = "/_stop") (answer : Answer) :
      Step t i (t.put i { t.server with stopping := true } (.ended answer))
  | other {time : String} {call : Call} {taken : Service} (begun : t.stage i = .begun taken)
      (asks : errand i = .call time call)
      (unmatched : taken.find call.method call.uri.path = none)
      (plain : ¬ (Reads call.method ∧ (call.uri.path = "/_stop" ∨ call.uri.path = "/_reload")))
      (answer : Answer) : Step t i (t.put i t.server (.ended answer))
  | load {load : Nat → Except ServiceFault Service} (about : AboutToReload errand t i)
      (configured : setup.reloader = some load) :
      Step t i (t.put i { t.server with reloads := t.server.reloads + 1 }
        (.loading t.server.reloads (load t.server.reloads)))
  | unable (about : AboutToReload errand t i) (unset : setup.reloader = none) (answer : Answer) :
      Step t i (t.put i t.server (.ended answer))
  | work {request : Request} {s s' : State} {rest : Course Unit} {work : Effect (Course Unit)}
      {r : Except Failure (Course Unit)} (serving : t.stage i = .serving request s rest)
      (next : rest.step setup.host request = some work)
      (outcome : work.outcome { s with data := t.server.data } = (r, s')) :
      Step t i (t.put i { t.server with data := s'.data } (.serving request s' (leftOf r)))
  | finish {request : Request} {s : State} {rest : Course Unit}
      (serving : t.stage i = .serving request s rest) (answer : Answer) :
      Step t i (t.put i t.server (.ended answer))
  | swap {n : Nat} {service : Service} (loading : t.stage i = .loading n (.ok service))
      (answer : Answer) : Step t i (t.put i { t.server with service } (.ended answer))
  | keep {n : Nat} {f : ServiceFault} (loading : t.stage i = .loading n (.error f))
      (answer : Answer) : Step t i (t.put i t.server (.ended answer))

variable {setup errand} {t u : Traffic ι} {i j : ι}

theorem AboutToReload.step (about : AboutToReload errand t i) :
    Step setup errand t i (t.startReload setup errand i) := by
  unfold startReload
  split
  · next unset => exact .unable about unset _
  · next load configured => exact .load about configured

theorem step_of_advance (moved : t.advance setup errand i = some u) : Step setup errand t i u := by
  unfold advance at moved
  split at moved
  · next waiting asks =>
    split at moved <;> obtain rfl := Option.some.inj moved
    · next large => exact .refuse waiting asks large
    · next small => exact .begin waiting asks small
  · next waiting asks =>
    obtain rfl := Option.some.inj moved
    exact AboutToReload.step (.direct waiting asks)
  · next taken time call begun asks =>
    obtain ⟨route, params, selected, purpose⟩ | ⟨unmatched, reads, path, purpose⟩ |
      ⟨unmatched, reads, path, purpose⟩ | ⟨unmatched, plain, purpose | purpose⟩ :=
      purpose_cases taken call.method call.uri.path <;>
      rw [purpose] at moved <;> obtain rfl := Option.some.inj moved
    · exact .select begun asks selected
    · exact .stop begun asks unmatched reads path _
    · exact AboutToReload.step (.asked begun asks unmatched reads path)
    · exact .other begun asks unmatched plain _
    · exact .other begun asks unmatched plain _
  · cases moved
  · next request s rest serving =>
    obtain rfl := Option.some.inj moved
    unfold serve
    split
    · exact .finish serving _
    · next work next => exact .work serving next rfl
  · next loading =>
    obtain rfl := Option.some.inj moved
    exact .swap loading _
  · next loading =>
    obtain rfl := Option.some.inj moved
    exact .keep loading _
  · cases moved

variable {origin : Traffic ι} {schedule : List ι}

theorem follow_snoc (schedule : List ι) (i : ι) :
    origin.follow setup errand (schedule ++ [i]) =
      (origin.follow setup errand schedule).bind fun t => t.advance setup errand i := by
  simp [follow, List.foldlM_append]

theorem put_stage_self (server : Server) (stage : Stage) : (t.put i server stage).stage i = stage := by
  simp [put]

theorem put_stage_of_ne (server : Server) (stage : Stage) (other : j ≠ i) :
    (t.put i server stage).stage j = t.stage j := by
  simp [put, Function.update_of_ne other]

/-- A step of an errand is its own. -/
theorem stage_advance_of_ne (moved : t.advance setup errand i = some u) (other : j ≠ i) :
    u.stage j = t.stage j := by
  cases step_of_advance moved <;> exact put_stage_of_ne _ _ other

variable (setup errand) in
/-- By itself an errand comes to this answer and leaves this server. -/
def Ends (t : Traffic ι) (i : ι) (answer : Answer) (server : Server) : Prop :=
  ∃ n u, t.follow setup errand (List.replicate n i) = some u ∧ u.stage i = .ended answer ∧
    u.server = server

theorem Ends.put (t : Traffic ι) (i : ι) (answer : Answer) (server : Server) :
    Ends setup errand (t.put i server (.ended answer)) i answer server :=
  ⟨0, _, rfl, put_stage_self _ _, rfl⟩

theorem Ends.of_advance {answer : Answer} {server : Server}
    (moved : t.advance setup errand i = some u) (later : Ends setup errand u i answer server) :
    Ends setup errand t i answer server := by
  obtain ⟨n, v, reached, ended, left⟩ := later
  refine ⟨n + 1, v, ?_, ended, left⟩
  simpa [follow, List.replicate_succ, moved] using reached

theorem answered_of_outcome {work other : Effect Unit} {s s' : State}
    (same : work.outcome s = other.outcome s') : answered work s = answered other s' := by
  rw [Effect.outcome, Effect.outcome] at same
  rw [answered, answered, same]

variable (setup errand i) in
/-- By itself the course of a request comes to what it comes to at one go. -/
def Whole (request : Request) (c : Course Unit) : Prop :=
  ∀ (t : Traffic ι) (s : State), t.stage i = .serving request s c →
    Ends setup errand t i
      (.reply (.ofResponse
        (answered (c.run setup.host request) { s with data := t.server.data }).response))
      { t.server with
        data := (answered (c.run setup.host request) { s with data := t.server.data }).data }

theorem Whole.done (request : Request) : Whole setup errand i request (.done ()) := by
  intro t s serving
  have moved : t.advance setup errand i =
      some (t.put i t.server (.ended (.reply (.ofResponse s.response)))) := by
    simp [advance, serving, serve, Course.step, Course.close]
  exact .of_advance moved (.put t i _ t.server)

theorem Whole.failed (request : Request) (f : Failure) :
    Whole setup errand i request (.failed f) := by
  intro t s serving
  have moved : t.advance setup errand i =
      some (t.put i t.server (.ended (.reply (.ofResponse (s.response.failed f))))) := by
    simp [advance, serving, serve, Course.step, Course.close]
  exact .of_advance moved (.put t i _ t.server)

theorem Whole.of_step {request : Request} {c : Course Unit} {work : Effect (Course Unit)}
    (next : c.step setup.host request = some work)
    (later : ∀ rest s s', work.outcome s = (.ok rest, s') → Whole setup errand i request rest) :
    Whole setup errand i request c := by
  intro t s serving
  rcases left : work.outcome { s with data := t.server.data } with ⟨r, s'⟩
  have moved : t.advance setup errand i =
      some (t.put i { t.server with data := s'.data } (.serving request s' (leftOf r))) := by
    simp [advance, serving, serve, next, left]
  refine .of_advance moved ?_
  have rest : Whole setup errand i request (leftOf r) := by
    cases r with
    | ok rest => exact later rest _ _ left
    | error f => exact .failed request f
  have same : answered (c.run setup.host request) { s with data := t.server.data } =
      answered ((leftOf r).run setup.host request) s' := by
    apply answered_of_outcome
    rw [Course.run_step next, Effect.outcome_bind, left]
    cases r <;> rfl
  rw [same]
  exact rest (t.put i { t.server with data := s'.data } _) s' (put_stage_self _ _)

theorem whole (setup : Setup) (errand : ι → Errand) (i : ι) (request : Request)
    (c : Course Unit) : Whole setup errand i request c := by
  induction c with
  | done => exact .done request
  | failed f => exact .failed request f
  | evaluate code locals next ih =>
    refine .of_step rfl fun rest s s' left => ?_
    obtain ⟨v, -, rfl⟩ := Effect.map_ok_iff.mp left
    exact ih v
  | execute code locals next ih =>
    refine .of_step rfl fun rest s s' left => ?_
    obtain ⟨-, -, rfl⟩ := Effect.map_ok_iff.mp left
    exact ih
  | read path next ih =>
    refine .of_step rfl fun rest s s' left => ?_
    obtain ⟨content, -, rfl⟩ := Effect.map_ok_iff.mp left
    exact ih content
  | reply change next ih =>
    refine .of_step rfl fun rest s s' left => ?_
    obtain ⟨-, -, rfl⟩ := Effect.map_ok_iff.mp left
    exact ih

theorem Ends.loaded {n : Nat} {service : Service} (loading : t.stage i = .loading n (.ok service)) :
    Ends setup errand t i ((errand i).told (.ok service.size)) (t.server.activate service) := by
  have moved : t.advance setup errand i = some (t.put i (t.server.activate service)
      (.ended ((errand i).told (.ok service.size)))) := by
    simp [advance, loading]
  exact .of_advance moved (.put t i _ _)

theorem Ends.notLoaded {n : Nat} {f : ServiceFault} (loading : t.stage i = .loading n (.error f)) :
    Ends setup errand t i ((errand i).told (.error f.message)) t.server := by
  have moved : t.advance setup errand i =
      some (t.put i t.server (.ended ((errand i).told (.error f.message)))) := by
    simp [advance, loading]
  exact .of_advance moved (.put t i _ _)

/-- By itself a reload that begins is a reload of the server. -/
theorem ends_startReload (setup : Setup) (errand : ι → Errand) (t : Traffic ι) (i : ι) :
    Ends setup errand (t.startReload setup errand i) i
      ((errand i).told (t.server.reload setup).1) (t.server.reload setup).2 := by
  unfold startReload Server.reload
  cases setup.reloader with
  | none => exact .put t i _ _
  | some load =>
    have loading := put_stage_self (t := t) (i := i) { t.server with reloads := t.server.reloads + 1 }
      (.loading t.server.reloads (load t.server.reloads))
    simp only
    cases found : load t.server.reloads with
    | ok service =>
      rw [found] at loading
      exact .loaded loading
    | error f =>
      rw [found] at loading
      exact .notLoaded loading

theorem ends_begun (stock : setup.host.commands = Commands.builtIn) {time : String} {call : Call}
    (begun : t.stage i = .begun t.server.service) (asks : errand i = .call time call) :
    Ends setup errand t i (.reply (t.server.handle setup time call).1)
      (t.server.handle setup time call).2 := by
  rw [Server.handle]
  cases purpose : Server.purpose t.server.service call.method call.uri.path with
  | rules route params =>
    let ctx : Context := { request := call.toRequest params }
    let v := t.put i t.server (.serving ctx.request {} (Course.rules ctx route.rules))
    have moved : t.advance setup errand i = some v := by
      simp [advance, begun, asks, purpose, v, ctx]
    have atOneGo := whole setup errand i ctx.request (Course.rules ctx route.rules) v {}
      (put_stage_self _ _)
    rw [Course.run_rules stock] at atOneGo
    exact .of_advance moved atOneGo
  | stop =>
    have moved : t.advance setup errand i = some (t.put i { t.server with stopping := true }
        (.ended (.reply (Server.stopReply time)))) := by
      simp [advance, begun, asks, purpose]
    exact .of_advance moved (.put t i _ _)
  | reload =>
    have moved : t.advance setup errand i = some (t.startReload setup errand i) := by
      simp [advance, begun, asks, purpose]
    have ends := ends_startReload setup errand t i
    rw [asks] at ends
    exact .of_advance moved ends
  | index =>
    have moved : t.advance setup errand i =
        some (t.put i t.server (.ended (.reply (Server.indexReply setup)))) := by
      simp [advance, begun, asks, purpose]
    exact .of_advance moved (.put t i _ _)
  | nothing =>
    have moved : t.advance setup errand i = some (t.put i t.server (.ended (.reply .notFound))) := by
      simp [advance, begun, asks, purpose]
    exact .of_advance moved (.put t i _ _)

/-- By itself a request is answered as the server answers it when nothing else goes on. -/
theorem ends_call (stock : setup.host.commands = Commands.builtIn) {time : String} {call : Call}
    (waiting : t.stage i = .waiting) (asks : errand i = .call time call) :
    Ends setup errand t i (.reply (t.server.receive setup time (.ofCall call)).1)
      (t.server.receive setup time (.ofCall call)).2 := by
  rw [Server.receive_ofCall]
  by_cases large : Call.bodyLimit < call.body.size
  · have moved : t.advance setup errand i =
        some (t.put i t.server (.ended (.reply Server.tooLarge))) := by
      simp [advance, waiting, asks, large]
    rw [if_pos large]
    exact .of_advance moved (.put t i _ _)
  · have moved : t.advance setup errand i = some (t.put i t.server (.begun t.server.service)) := by
      simp [advance, waiting, asks, large]
    rw [if_neg large]
    refine .of_advance moved ?_
    exact ends_begun (t := t.put i t.server (.begun t.server.service)) stock (put_stage_self _ _) asks

/-- By itself a reload is a reload of the server. -/
theorem ends_reload (waiting : t.stage i = .waiting) (asks : errand i = .reload) :
    Ends setup errand t i (.reloaded (t.server.reload setup).1) (t.server.reload setup).2 := by
  have moved : t.advance setup errand i = some (t.startReload setup errand i) := by
    simp [advance, waiting, asks]
  have ends := ends_startReload setup errand t i
  rw [asks] at ends
  exact .of_advance moved ends

end Traffic

end RuleService.Http
