import RuleService.Launch.Startup

namespace RuleService

/-- What the last look found: the bytes of the file, or none if it could not be read. -/
structure Watcher where
  path : String
  last : Option ByteArray

namespace Watcher

/-- The bytes of a file as a look finds them. -/
def fingerprint (files : Files) (path : String) : Option ByteArray := (files.readBytes path).toOption

/-- A watcher that has just looked. -/
def begin (files : Files) (path : String) : Watcher := ⟨path, fingerprint files path⟩

/-- The entry that tells how a reload went. -/
def reloadEntry : Except String Nat → LogEntry
  | .ok routes => ⟨.info, "service descriptor changed; reloaded", [("routes", toString routes)]⟩
  | .error why => ⟨.error, "service descriptor changed but failed to load", [("error", why)]⟩

/-- Looks at the file, and reloads the service if it has changed since the look before. -/
def look (w : Watcher) (files : Files) (setup : Http.Setup) (server : Http.Server) :
    List LogEntry × Watcher × Http.Server :=
  let now := fingerprint files w.path
  if now == w.last then ([], w, server)
  else
    let w := { w with last := now }
    match now with
    | none =>
      ([⟨.warn, "service descriptor disappeared; keeping current routes", [("file", w.path)]⟩],
        w, server)
    | some _ =>
      let (r, server) := server.reload setup
      ([reloadEntry r], w, server)

end Watcher

namespace Running

/-- The watcher of a program that has been asked to watch. What lies in object storage is not watched. -/
def watcher? (r : Running) : Option Watcher :=
  let path := r.settings.serviceDescriptor
  if r.watch && !isObjectPath path then some (Watcher.begin r.equipment.files path) else none

/-- Lets a watcher look. -/
def look (r : Running) (w : Watcher) : List LogEntry × Watcher × Running :=
  let (log, w, server) := w.look r.equipment.files r.setup r.server
  (log, w, { r with server })

end Running

end RuleService
