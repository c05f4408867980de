import RuleService.Launch.Watch
import Std.Http.Server

namespace RuleService.Program

open Std.Async (Async ContextAsync)

/-- The files below the working directory as they are now. What is gone when it is read is left out. -/
def filesNow : IO Files := do
  let top ← IO.currentDir
  let depth := top.components.length
  let mut entries : List (List String × Entry) := []
  for path in (← top.walkDir) do
    let place := path.components.drop depth
    if ← path.isDir then
      entries := (place, .directory) :: entries
    else
      match ← (IO.FS.readBinFile path).toBaseIO with
      | .ok bytes => entries := (place, .file bytes) :: entries
      | .error (.noFileOrDirectory ..) => pure ()
      | .error (.permissionDenied ..) => entries := (place, .refused .permissionDenied) :: entries
      | .error _ => entries := (place, .refused .inputOutput) :: entries
  return { entries }

def report (log : List LogEntry) : IO Unit := log.forM fun e => IO.eprintln e.line

/-- The time in the form of reports. -/
def timeNow : IO String := do
  let now ← Std.Time.Timestamp.now
  return (Std.Time.DateTime.ofTimestamp now .UTC).format "uuuu-MM-dd'T'HH:mm:ss.SSSSSSSSSxxx"

/-- A running program, and what ends it. -/
structure Desk where
  running : Std.Mutex Running
  ending : IO.Promise Unit

/-- A request as the library of the transport hands it over. -/
def callOf (request : Std.Http.Request Std.Http.Body.Stream) (body : ByteArray) :
    Option Http.Call :=
  let client := request.extensions.get Std.Http.Server.RemoteAddr
  Http.Call.of? (toString request.line.method) (toString request.line.uri)
    (request.line.headers.toList.map fun (name, value) => (name.value, value.value))
    ((client.map fun c => toString c.addr.ipAddr).getD "") body

/-- A reply in the form the library of the transport takes. -/
def sendReply (reply : Http.Reply) : Async (Std.Http.Response Std.Http.Body.Full) := do
  let code := reply.status.toUInt16
  let status := (Std.Http.Status.ofCode none code).getD .internalServerError
  let headers := reply.headers.foldl (fun hs (name, value) => (hs.insert? name value).getD hs)
    Std.Http.Headers.empty
  return { line := { status, headers }, body := ← Std.Http.Body.Full.ofByteArray reply.body.toUTF8 }

/-- Answers a request over the files as they are now. -/
def Desk.answer (desk : Desk) (call : Http.Call) : IO Http.Reply := do
  let files ← filesNow
  let time ← timeNow
  desk.running.atomically do
    let running ← get
    let (reply, after, log) := (running.withFiles files).answer time call
    set after
    log.forM fun e => IO.eprintln (repr e).pretty
    if after.server.stopping then desk.ending.resolve ()
    return reply

instance : Std.Http.Server.Handler Desk where
  ResponseBody := Std.Http.Body.Full
  onRequest desk request := do
    let body : ByteArray ← request.body.readAll
    let reply ← match callOf request body with
      | some call => desk.answer call
      | none => pure (Http.Reply.plain 400 "")
    sendReply reply

/-- Looks at the descriptor again and again. -/
partial def Desk.watch (desk : Desk) (w : Watcher) : Async Unit := do
  Std.Async.sleep 1500
  let files ← filesNow
  let w ← desk.running.atomically do
    let running ← get
    let (log, w, after) := (running.withFiles files).look w
    set after
    report log
    return w
  desk.watch w

/-- Listens until a request asks for the end, and prints the log of the start as soon as it does. -/
def serve (running : Running) (log : List LogEntry) : Async Unit := do
  let desk : Desk := { running := ← Std.Mutex.new running, ending := ← IO.Promise.new }
  let address : Std.Net.SocketAddress :=
    .v4 ⟨.ofParts 0 0 0 0, running.settings.port.toUInt16⟩
  let server ← Std.Http.Server.serve address desk { maxBodySize := 4 * Http.Call.bodyLimit }
  report log
  if let some w := running.watcher? then Std.Async.background (desk.watch w)
  Async.ofPurePromise (pure desk.ending)
  server.shutdownAndWait

/-- Starts over the files as they are now. That the port is taken turns out only when the program
listens; what the start comes to is then asked again. -/
def start (flags : Flags) : IO UInt32 := do
  let files ← filesNow
  let outcome (taken : Option String) : List LogEntry × Except StartFault Running :=
    Startup.start
      { files, fetch := fun _ => .unreached "object storage is out of reach",
        taken := fun _ => taken } flags
  let refuse (log : List LogEntry) (f : StartFault) : IO UInt32 := do
    report log
    IO.eprintln ("error: " ++ f.message)
    return 1
  match outcome none with
  | (log, .error f) => refuse log f
  | (log, .ok running) =>
    match ← (Async.block (serve running log)).toBaseIO with
    | .ok () => return 0
    | .error e =>
      match outcome (some (toString e)) with
      | (log, .error f) => refuse log f
      | (_, .ok _) => throw e

end RuleService.Program

open RuleService in
/-- Runs the program with the arguments of a command line. Object storage is out of its reach. -/
def main (arguments : List String) : IO UInt32 := do
  match Flags.ofArguments ("" :: arguments) with
  | .ok flags => Program.start flags
  | .error f =>
    if f = .helpWanted ∨ f = .versionWanted then
      IO.println f.message
      return 0
    IO.eprintln f.message
    return 2
