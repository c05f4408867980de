import Mathlib
import RuleService.Launch.Watch
import RuleService.Proofs.Transparency

namespace RuleService

/-- The service that a descriptor of these bytes defines. -/
def Service.ofBytes? (bytes : ByteArray) : Option Service :=
  (String.fromUTF8? bytes).bind fun text => (ofText text).toOption

namespace Running

/-- The bytes of the descriptor as it is now. -/
def descriptor (r : Running) : Option ByteArray :=
  Watcher.fingerprint r.equipment.files r.settings.serviceDescriptor

/-- The service that the descriptor defines now. -/
def defined (r : Running) : Except ServiceFault Service :=
  Service.load r.equipment.host.file r.settings.serviceDescriptor

/-- What a request loads. -/
def loads (r : Running) (call : Http.Call) : Option Service :=
  match Http.Server.purpose r.server.service call.method call.uri.path with
  | .reload => if Http.Call.bodyLimit < call.body.size then none else r.defined.toOption
  | _ => none

end Running

/-- A running program with its watcher, which knows the file it saw last, and not the service that is active. -/
structure Watched where
  program : Running
  watcher : Watcher

/-- What happens to a watched program. -/
inductive Occurrence where
  /-- The files become others: the descriptor may be edited, removed, or there again. -/
  | edit (files : Files)
  | request (time : String) (call : Http.Call)
  /-- The watcher looks at the descriptor. -/
  | tick

namespace Watched

/-- The active service. -/
def service (w : Watched) : Service := w.program.server.service

def after (w : Watched) : Occurrence → Watched
  | .edit files => { w with program := w.program.withFiles files }
  | .request time call => { w with program := (w.program.answer time call).2.1 }
  | .tick => let (_, watcher, program) := w.program.look w.watcher; ⟨program, watcher⟩

def run (w : Watched) (os : List Occurrence) : Watched := os.foldl after w

/-- What an occurrence loads. -/
def loads (w : Watched) : Occurrence → Option Service
  | .edit _ => none
  | .request _ call => w.program.loads call
  | .tick => if w.program.descriptor = w.watcher.last then none else w.program.defined.toOption

/-- The descriptor is a file, and the one that is watched. -/
structure OnFile (w : Watched) : Prop where
  path : w.watcher.path = w.program.settings.serviceDescriptor
  file : isObjectPath w.program.settings.serviceDescriptor = false

/-- The active service is the one that was defined when the watcher looked last. -/
structure InStep (w : Watched) : Prop extends OnFile w where
  same : ∃ bytes, w.watcher.last = some bytes ∧ Service.ofBytes? bytes = some w.service

/-- The last load of a run was made by a request. -/
inductive LoadedByRequest (start : Watched) (os : List Occurrence) (service : Service) : Prop
  | intro {front back : List Occurrence} {time : String} {call : Http.Call}
      (split : os = front ++ .request time call :: back)
      (loaded : (start.run front).loads (.request time call) = some service)
      (last : ∀ mid o rest, back = mid ++ o :: rest →
        (start.run (front ++ .request time call :: mid)).loads o = none)

@[simp] theorem run_nil (w : Watched) : w.run [] = w := rfl

theorem run_snoc (w : Watched) (os : List Occurrence) (o : Occurrence) :
    w.run (os ++ [o]) = (w.run os).after o := by
  simp [run]

end Watched

instance lawfulBEqBytes : LawfulBEq ByteArray where
  eq_of_beq {a b} same := ByteArray.ext (eq_of_beq (show (a.data == b.data) = true from same))
  rfl {a} := beq_self_eq_true a.data

theorem toOption_bind {ε α β : Type} (r : Except ε α) (next : α → Except ε β) :
    (r >>= next).toOption = r.toOption.bind fun a => (next a).toOption := by
  cases r <;> rfl

theorem toOption_mapError {ε ε' α : Type} (r : Except ε α) (g : ε → ε') :
    (r.mapError g).toOption = r.toOption := by
  cases r <;> rfl

theorem Files.toOption_read (files : Files) (path : String) :
    (files.read path).toOption = (files.readBytes path).toOption.bind String.fromUTF8? := by
  rw [Files.read, toOption_mapError, Files.readText, toOption_bind]
  congr 1
  funext bytes
  cases String.fromUTF8? bytes <;> rfl

theorem Running.defined_toOption {r : Running}
    (file : isObjectPath r.settings.serviceDescriptor = false) :
    r.defined.toOption = r.descriptor.bind Service.ofBytes? := by
  have read : r.equipment.host.file r.settings.serviceDescriptor =
      r.equipment.files.read r.settings.serviceDescriptor := by
    simp [Equipment.host, Equipment.readers, Readers.read, file]
  rw [Running.defined, Service.load, toOption_bind, toOption_mapError, read, Files.toOption_read,
    Option.bind_assoc]
  rfl

theorem Running.answer_eq (r : Running) (time : String) (call : Http.Call) :
    (r.answer time call).2.1 = { r with server := (r.server.receive r.setup time (.ofCall call)).2 } := by
  have after := (Http.Server.respond_eq r.server r.settings.accessLog r.setup time (.ofCall call)).2
  simp only [Running.answer, after]

/-- A reload activates what the descriptor defines. -/
theorem Running.service_reload (r : Running) :
    (r.server.reload r.setup).2.service = r.defined.toOption.getD r.server.service := by
  have load : r.setup.reloader = some fun _ => r.defined := rfl
  rw [Http.Server.reload, load]
  cases r.defined <;> rfl

theorem Running.service_receive (r : Running) (time : String) (call : Http.Call) :
    (r.server.receive r.setup time (.ofCall call)).2.service = (r.loads call).getD r.server.service := by
  rw [Http.Server.receive_ofCall]
  unfold Running.loads Http.Server.handle
  cases purpose : Http.Server.purpose r.server.service call.method call.uri.path <;>
    by_cases large : Http.Call.bodyLimit < call.body.size <;> simp [large, r.service_reload]

namespace Watched

variable {w start : Watched} {os : List Occurrence} {o : Occurrence} {service other : Service}

theorem OnFile.after (onFile : w.OnFile) (o : Occurrence) : (w.after o).OnFile := by
  obtain ⟨path, file⟩ := onFile
  cases o with
  | edit files => exact ⟨path, file⟩
  | request time call =>
    simp only [Watched.after, Running.answer_eq]
    exact ⟨path, file⟩
  | tick =>
    simp only [Watched.after, Running.look, Watcher.look]
    split
    · exact ⟨path, file⟩
    · split <;> exact ⟨path, file⟩

/-- A look takes note of the descriptor. -/
theorem OnFile.last_tick (onFile : w.OnFile) :
    (w.after .tick).watcher.last = w.program.descriptor := by
  simp only [Watched.after, Running.look, Watcher.look, onFile.path]
  split
  · next same => exact (beq_iff_eq.mp same).symm
  · split <;> rfl

theorem last_after (other : o ≠ .tick) : (w.after o).watcher.last = w.watcher.last := by
  cases o <;> simp_all [Watched.after]

/-- The active service is the one loaded, if any is. -/
theorem OnFile.service_after (onFile : w.OnFile) (o : Occurrence) :
    (w.after o).service = (w.loads o).getD w.service := by
  cases o with
  | edit files => rfl
  | request time call =>
    simp only [Watched.after, Running.answer_eq, Watched.service]
    exact w.program.service_receive time call
  | tick =>
    have now : Watcher.fingerprint w.program.equipment.files w.watcher.path = w.program.descriptor := by
      rw [onFile.path]
      rfl
    simp only [Watched.after, Running.look, Watcher.look, now, Watched.loads, Watched.service]
    by_cases same : w.program.descriptor = w.watcher.last
    · simp [same]
    · cases bytes : w.program.descriptor with
      | none =>
        have unread := Running.defined_toOption onFile.file
        rw [bytes] at same unread
        simp [same, unread]
      | some bytes' =>
        rw [bytes] at same
        simp [same, Running.service_reload]

theorem run_append (front back : List Occurrence) :
    start.run (front ++ back) = (start.run front).run back :=
  List.foldl_append

theorem OnFile.run (onFile : start.OnFile) (os : List Occurrence) : (start.run os).OnFile := by
  induction os using List.reverseRecOn with
  | nil => exact onFile
  | append_singleton os o ih =>
    rw [run_snoc]
    exact ih.after o

/-- Without a load the active service stays. -/
theorem OnFile.service_run (onFile : w.OnFile)
    (none : ∀ mid o rest, os = mid ++ o :: rest → (w.run mid).loads o = none) :
    (w.run os).service = w.service := by
  induction os using List.reverseRecOn with
  | nil => rfl
  | append_singleton os o ih =>
    rw [run_snoc, (onFile.run os).service_after, none os o [] rfl]
    exact ih fun mid o' rest split => none mid o' (rest ++ [o]) (by simp [split])

namespace LoadedByRequest

theorem service_run (onFile : start.OnFile) (loaded : LoadedByRequest start os service) :
    (start.run os).service = service := by
  obtain ⟨rfl, loaded, last⟩ := loaded
  rename_i front back time call
  have since : (start.run (front ++ [.request time call])).service = service := by
    rw [run_snoc, (onFile.run front).service_after, loaded]
    rfl
  have split : front ++ .request time call :: back = (front ++ [.request time call]) ++ back := by
    simp
  rw [split, run_append, OnFile.service_run (onFile.run _), since]
  intro mid o rest eq
  rw [← run_append]
  simpa using last mid o rest eq

/-- A request that loads made the last load. -/
theorem now {time : String} {call : Http.Call}
    (loaded : (start.run os).loads (.request time call) = some service) :
    LoadedByRequest start (os ++ [.request time call]) service :=
  .intro rfl loaded fun mid o rest eq => by simp at eq

/-- What does not load leaves the last load. -/
theorem before (loaded : LoadedByRequest start os service)
    (none : (start.run os).loads o = none) : LoadedByRequest start (os ++ [o]) service := by
  obtain ⟨rfl, loaded, last⟩ := loaded
  rename_i front back time call
  refine .intro (List.append_assoc _ _ _) loaded fun mid o' rest eq => ?_
  have eq : back ++ [o] = mid ++ o' :: rest := eq
  rcases List.eq_nil_or_concat rest with rfl | ⟨rest, o'', rfl⟩
  · obtain ⟨rfl, tail⟩ := List.append_inj' eq rfl
    obtain rfl : o = o' := List.singleton_inj.mp tail
    exact none
  · rw [List.concat_eq_append, ← List.cons_append, ← List.append_assoc] at eq
    exact last mid o' rest (List.append_inj' eq rfl).1

end LoadedByRequest

/-- The active service is the one the watcher saw defined last, if it saw one defined. -/
def Follows (w : Watched) : Prop :=
  ∀ service, w.watcher.last.bind Service.ofBytes? = some service → w.service = service

/-- After a look at which nothing is loaded, the watcher saw what it had seen before. -/
theorem Follows.after (follows : w.Follows) (onFile : w.OnFile) (none : w.loads o = none) :
    (w.after o).Follows := by
  intro service defined
  have active : (w.after o).service = w.service := by rw [onFile.service_after, none, Option.getD_none]
  rw [active]
  by_cases looks : o = .tick
  · subst looks
    rw [onFile.last_tick] at defined
    have load : w.program.defined.toOption = some service :=
      (Running.defined_toOption onFile.file).trans defined
    have same : w.program.descriptor = w.watcher.last := by
      by_contra new
      rw [Watched.loads, if_neg new, load] at none
      cases none
    exact follows service (same ▸ defined)
  · rw [last_after looks] at defined
    exact follows service defined

/-- A look at which something is loaded brings the active service in step, whatever was active. -/
theorem OnFile.follows_tick (onFile : w.OnFile) (loaded : w.loads .tick = some service) :
    (w.after .tick).Follows := by
  intro seen defined
  rw [onFile.last_tick, ← Running.defined_toOption onFile.file] at defined
  rw [Watched.loads, defined] at loaded
  have active : (w.after .tick).service = service := by
    rw [onFile.service_after, Watched.loads, defined, loaded, Option.getD_some]
  split at loaded
  · cases loaded
  · rw [active, Option.some.inj loaded]

/-- The active service is the one the watcher saw defined last, unless a request made the last load. -/
theorem InStep.follows (inStep : start.InStep) (os : List Occurrence) :
    (start.run os).Follows ∨ ∃ other, LoadedByRequest start os other := by
  induction os using List.reverseRecOn with
  | nil =>
    obtain ⟨bytes, last, same⟩ := inStep.same
    refine .inl fun service defined => ?_
    rw [run_nil, last, Option.bind_some, same] at defined
    exact Option.some.inj defined
  | append_singleton os o ih =>
    have onFile := inStep.toOnFile.run os
    rw [run_snoc]
    cases loaded : (start.run os).loads o with
    | none =>
      rcases ih with follows | ⟨other, byRequest⟩
      · exact .inl (follows.after onFile loaded)
      · exact .inr ⟨other, byRequest.before loaded⟩
    | some service =>
      cases o with
      | edit files => cases loaded
      | request time call => exact .inr ⟨service, .now loaded⟩
      | tick => exact .inl (onFile.follows_tick loaded)

/-- A program that has just started is in step with the file it watches. -/
theorem inStep_of_start {around : Surroundings} {flags : Flags} {program : Running}
    {watcher : Watcher} (started : (Startup.start around flags).2 = .ok program)
    (watching : program.watcher? = some watcher) : InStep ⟨program, watcher⟩ := by
  have active : program.defined = .ok program.server.service := by
    simp only [Startup.start] at started
    split at started
    · cases started
    · next loaded =>
      split at started
      · cases started
      · obtain rfl := Except.ok.inj started
        exact loaded
  obtain ⟨file, rfl⟩ : isObjectPath program.settings.serviceDescriptor = false ∧
      Watcher.begin program.equipment.files program.settings.serviceDescriptor = watcher := by
    simp only [Running.watcher?] at watching
    split at watching
    · next asked => exact ⟨by simpa using (Bool.and_eq_true_iff.mp asked).2, Option.some.inj watching⟩
    · cases watching
  have defined := Running.defined_toOption file
  rw [active] at defined
  obtain ⟨bytes, last, same⟩ := Option.bind_eq_some_iff.mp defined.symm
  exact ⟨⟨rfl, file⟩, bytes, last, same⟩

/-- The active service after a look. Without a service defined it stays as it was. Otherwise it is the one
the descriptor defines, unless the watcher takes the descriptor for the one it saw last, and a request
has loaded another since. -/
theorem InStep.service_after_tick (inStep : start.InStep) (os : List Occurrence) :
    (∀ why, (start.run os).program.defined = .error why →
      ((start.run os).after .tick).service = (start.run os).service) ∧
    ∀ service, (start.run os).program.defined = .ok service →
      (((start.run os).after .tick).service = service ↔
        ¬ ((start.run os).watcher.last = (start.run os).program.descriptor ∧
          ∃ other, LoadedByRequest start os other ∧ other ≠ service)) := by
  have onFile := inStep.toOnFile.run os
  have active := onFile.service_after .tick
  rw [Watched.loads] at active
  refine ⟨fun why undefined => ?_, fun service defined => ?_⟩
  · rw [active, undefined]
    split <;> rfl
  · by_cases same : (start.run os).program.descriptor = (start.run os).watcher.last
    · rw [active, if_pos same, Option.getD_none]
      constructor
      · rintro current ⟨-, other, byRequest, differs⟩
        exact differs ((byRequest.service_run inStep.toOnFile).symm.trans current)
      · intro inTime
        rcases inStep.follows os with follows | ⟨other, byRequest⟩
        · refine follows service ?_
          rw [← same, ← Running.defined_toOption onFile.file, defined]
          rfl
        · rw [byRequest.service_run inStep.toOnFile]
          by_contra differs
          exact inTime ⟨same.symm, other, byRequest, differs⟩
    · rw [active, if_neg same, defined]
      exact ⟨fun _ both => same both.1.symm, fun _ => rfl⟩

/-- A directory with a descriptor. -/
def desk (text : String) : Files := ⟨[(["service.json"], .file text.toUTF8)]⟩

theorem fingerprint_desk (text : String) :
    Watcher.fingerprint (desk text) "service.json" = some text.toUTF8 := by
  have found : (desk text).find "service.json" = .ok (.file text.toUTF8) := by cbv
  simp [Watcher.fingerprint, Files.readBytes, found, bind, Except.bind, pure, Except.pure,
    Except.toOption]

theorem ofBytes?_toUTF8 (text : String) :
    Service.ofBytes? text.toUTF8 = (Service.ofText text).toOption := by
  have whole : String.fromUTF8? text.toUTF8 = some text := dif_pos text.isValidUTF8
  rw [Service.ofBytes?, whole]
  rfl

/-- A descriptor with one route, and the service it defines. -/
def greeting : String := "\x7b\"/v\":\x7b\"get\":\x7b\x7d\x7d\x7d"

def greetingService : Service := ⟨[⟨"/v", .get, [⟨[], none, none, none⟩]⟩]⟩

theorem empty_defines : Service.ofText "\x7b\x7d" = .ok {} := by cbv

theorem greeting_defines : Service.ofText greeting = .ok greetingService := by cbv

/-- A program that watches its descriptor, over some files and with some active service. -/
def greeter (text : String) (service : Service) : Watched where
  program :=
    { settings := { serviceDescriptor := "service.json" }, watch := true, indexPage := none,
      equipment := { files := desk text, objects := fun path => .error (.fileNotFound path) },
      server := { service } }
  watcher := ⟨"service.json", some greeting.toUTF8⟩

def reloading : Http.Call := { method := "GET", uri := ⟨"/_reload", none, some "/_reload"⟩ }

theorem greeter_onFile (text : String) (service : Service) : (greeter text service).OnFile :=
  ⟨rfl, by cbv⟩

theorem greeter_inStep : (greeter greeting greetingService).InStep :=
  ⟨greeter_onFile _ _, greeting.toUTF8, rfl, by rw [ofBytes?_toUTF8, greeting_defines]; rfl⟩

theorem greeter_descriptor (text : String) (service : Service) :
    (greeter text service).program.descriptor = some text.toUTF8 :=
  fingerprint_desk text

theorem greeter_defined {text : String} {service defined : Service}
    (defines : Service.ofText text = .ok defined) :
    (greeter text service).program.defined = .ok defined := by
  have read : (greeter text service).program.defined.toOption = some defined := by
    rw [Running.defined_toOption (greeter_onFile text service).file, greeter_descriptor]
    exact (ofBytes?_toUTF8 text).trans (congrArg _ defines)
  cases result : (greeter text service).program.defined <;> simp_all [Except.toOption]

theorem service_after_tick_edited :
    (greeter greeting greetingService).InStep ∧
      (((greeter greeting greetingService).run [.edit (desk "\x7b\x7d")]).after .tick).service = {} := by
  have defined : ((greeter greeting greetingService).run [.edit (desk "\x7b\x7d")]).program.defined =
      .ok {} := greeter_defined empty_defines
  have edited : greeting ≠ "\x7b\x7d" := by decide
  refine ⟨greeter_inStep, ((greeter_inStep.service_after_tick _).2 {} defined).mpr ?_⟩
  rintro ⟨same, -⟩
  exact edited (String.toByteArray_inj.mp (Option.some.inj (same.trans (greeter_descriptor _ _))))

/-- The descriptor is emptied, a request reloads it, and the old one is put back. -/
def detour : List Occurrence :=
  [.edit (desk "\x7b\x7d"), .request "" reloading, .edit (desk greeting)]

/-- The request on the way activates the empty service. -/
theorem detour_loads : (greeter "\x7b\x7d" greetingService).loads (.request "" reloading) = some {} := by
  have purpose : Http.Server.purpose greetingService reloading.method reloading.uri.path = .reload := by
    cbv
  have small : ¬ Http.Call.bodyLimit < reloading.body.size := by decide
  have service : (greeter "\x7b\x7d" greetingService).program.server.service = greetingService := rfl
  rw [Watched.loads, Running.loads, service, purpose]
  simp only [small, if_false, greeter_defined empty_defines]
  rfl

/-- After a look at a descriptor that is back at what the watcher saw last, the service that a request
loaded in between is still the active one. -/
theorem service_after_tick_detour :
    (greeter greeting greetingService).InStep ∧
      ((greeter greeting greetingService).run detour).program.defined = .ok greetingService ∧
      (((greeter greeting greetingService).run detour).after .tick).service = {} ∧
      greetingService ≠ {} := by
  have ran : (greeter greeting greetingService).run detour =
      ((greeter "\x7b\x7d" greetingService).after (.request "" reloading)).after
        (.edit (desk greeting)) := rfl
  obtain ⟨server, program⟩ : ∃ server, ((greeter greeting greetingService).run detour).program =
      { (greeter greeting greetingService).program with server } := by
    rw [ran]
    simp only [after, Running.answer_eq]
    exact ⟨_, rfl⟩
  have defined : ((greeter greeting greetingService).run detour).program.defined =
      .ok greetingService := by
    have unchanged : (greeter greeting greetingService).program.defined = .ok greetingService :=
      greeter_defined greeting_defines
    rw [program]
    exact unchanged
  have seen : ((greeter greeting greetingService).run detour).program.descriptor =
      ((greeter greeting greetingService).run detour).watcher.last := by
    rw [program]
    exact greeter_descriptor greeting greetingService
  have service : ((greeter greeting greetingService).run detour).service = {} := by
    rw [ran]
    refine ((greeter_onFile _ _).service_after _).trans ?_
    rw [detour_loads]
    rfl
  refine ⟨greeter_inStep, defined, ?_, fun same => absurd (congrArg Service.size same) (by decide)⟩
  rw [((greeter_onFile _ _).run detour).service_after, Watched.loads, if_pos seen]
  exact service

end Watched

end RuleService
