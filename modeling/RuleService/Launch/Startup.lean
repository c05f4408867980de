import RuleService.Equipment
import RuleService.Http.AccessLog
import RuleService.Launch.CommandLine
import RuleService.Launch.Log

namespace RuleService

/-- Where the program runs. -/
structure Surroundings where
  files : Files := {}
  /-- What a storage service at an endpoint answers to a URL. -/
  fetch : String → StorageAnswer
  /-- Why a port cannot be listened to, if it cannot. -/
  taken : Nat → Option String

/-- Why the program does not start. -/
inductive StartFault where
  | usage (why : UsageFault)
  | service (descriptor : String) (why : ServiceFault)
  | port (address why : String)

/-- A fault of a service with the causes below it. -/
def ServiceFault.chain (f : ServiceFault) : String :=
  match f with
  | notJson why => f.message ++ ": " ++ why
  | f => f.message

def StartFault.message : StartFault → String
  | usage why => why.message
  | service descriptor why => "failed to load service descriptor " ++ descriptor ++ ": " ++ why.chain
  | port address why => "failed to bind " ++ address ++ ": " ++ why

/-- A program that listens. -/
structure Running where
  settings : Settings
  watch : Bool
  equipment : Equipment
  indexPage : Option String
  server : Http.Server

namespace Startup

/-- What a service is run with under some settings, before modules are loaded. -/
def equip (around : Surroundings) (s : Settings) : Equipment where
  files := around.files
  objects := (ObjectStore.mk s.endpoint around.fetch).read

/-- Loads the modules, and tells which do not load. -/
def importAll (q : Equipment) : Texts → Equipment × List LogEntry
  | [] => (q, [])
  | (name, path) :: rest =>
    match q.importModule name path with
    | .ok q => importAll q rest
    | .error f =>
      let (q, log) := importAll q rest
      (q, ⟨.error, "unable to load module", [("module", name), ("error", f.message)]⟩ :: log)

/-- The places of the index page, in the order in which they are tried. -/
def indexPaths : List String := ["./index.html", "./dist/index.html"]

/-- The index page with its place. -/
def indexPage? (files : Files) : Option (String × String) :=
  indexPaths.findSome? fun path =>
    (files.readText path).toOption.map fun page => (path, page)

def address (port : Nat) : String := "0.0.0.0:" ++ toString port

/-- Starts with some flags: the settings, the modules, the service, the index page and the port, in this order.
Modules that do not load are left out; a service that does not load or a port that is taken ends the
start. -/
def start (around : Surroundings) (flags : Flags) : List LogEntry × Except StartFault Running :=
  let (s, notice) := flags.resolve around.files
  let noticed := notice.toList.map fun text => LogEntry.mk .warn text []
  let (q, imported) := importAll (equip around s) s.imports
  match Service.load q.host.file s.serviceDescriptor with
  | .error f => (noticed ++ imported, .error (.service s.serviceDescriptor f))
  | .ok service =>
    let loaded := LogEntry.mk .info "service loaded"
      [("descriptor", s.serviceDescriptor), ("routes", toString service.size)]
    let index := if s.noDefaultIndex then none else indexPage? around.files
    let mounted := index.toList.map fun (path, _) =>
      LogEntry.mk .info "default index page mounted" [("page", path)]
    let log := noticed ++ imported ++ [loaded] ++ mounted
    match around.taken s.port with
    | some why => (log, .error (.port (address s.port) why))
    | none =>
      (log ++ [⟨.info, "listening", [("addr", address s.port)]⟩],
        .ok { settings := s, watch := flags.watch, equipment := q, indexPage := index.map (·.2),
              server := { service } })

/-- Starts with the arguments of a command line. -/
def run (around : Surroundings) (arguments : List String) :
    List LogEntry × Except StartFault Running :=
  match Flags.ofArguments arguments with
  | .error f => ([], .error (.usage f))
  | .ok flags => start around flags

end Startup

namespace Running

/-- What the server is set up with: each reload reads the descriptor as it is now. -/
def setup (r : Running) : Http.Setup where
  host := r.equipment.host
  indexPage := r.indexPage
  reloader := some fun _ => Service.load r.equipment.host.file r.settings.serviceDescriptor

/-- The program over changed files. -/
def withFiles (r : Running) (files : Files) : Running :=
  { r with equipment := { r.equipment with files } }

/-- Answers a request, and gives what goes into the access log. -/
def answer (r : Running) (time : String) (call : Http.Call) :
    Http.Reply × Running × List Http.AccessEntry :=
  let (reply, server, log) := r.server.respond r.settings.accessLog r.setup time (.ofCall call)
  (reply, { r with server }, log)

end Running

end RuleService
