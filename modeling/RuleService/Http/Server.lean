import RuleService.Http.Arrival
import RuleService.Http.Reply
import RuleService.Reply.Dispatch
import RuleService.Service.Basic

namespace RuleService.Http

/-- What a server is set up with. -/
structure Setup where
  host : Host
  /-- The page for the root, unless the service has a route of just that path. -/
  indexPage : Option String := none
  /-- What the n-th reload finds; without it there is no reloading. -/
  reloader : Option (Nat → Except ServiceFault Service) := none

/-- What requests can change. -/
structure Server where
  /-- The active routes. -/
  service : Service := {}
  data : Fields := []
  /-- Whether a request asked for the server to stop. -/
  stopping : Bool := false
  /-- The reloads so far. -/
  reloads : Nat := 0
  deriving Inhabited

namespace Server

/-- Makes a service the active one. -/
def activate (server : Server) (service : Service) : Server := { server with service }

/-- Loads the service anew. The active one is kept if that fails. -/
def reload (server : Server) (setup : Setup) : Except String Nat × Server :=
  match setup.reloader with
  | none => (.error "reloading is not configured", server)
  | some load =>
    let after := { server with reloads := server.reloads + 1 }
    match load server.reloads with
    | .ok service => (.ok service.size, after.activate service)
    | .error f => (.error f.message, after)

/-- Methods that only read. -/
def isReading (method : String) : Bool := method == "GET" || method == "HEAD"

/-- What a request is for. -/
inductive Purpose where
  | rules (route : Route) (params : Texts)
  | stop
  | reload
  | index
  | nothing
  deriving Inhabited

/-- The purpose of a request: the first route that fits, and only without one the paths of the server
itself. -/
def purpose (service : Service) (method path : String) : Purpose :=
  match service.find method path with
  | some (route, params) => .rules route params
  | none =>
    if !isReading method then .nothing
    else if path == "/_stop" then .stop
    else if path == "/_reload" then .reload
    else if path == "/" && !service.hasPath "/" then .index
    else .nothing

/-- The state after the rules of a route have answered a request. -/
def serve (server : Server) (setup : Setup) (call : Call) (route : Route) (params : Texts) : State :=
  dispatch setup.host { request := call.toRequest params } route.rules { data := server.data }

/-- The reply that the server stops at a time. -/
def stopReply (time : String) : Reply :=
  .document (.obj [("success", .bool true), ("time", .str time)])

/-- The reply that tells how a reload went. -/
def reloadReply : Except String Nat → Reply
  | .ok _ => .document (.obj [("success", .bool true)])
  | .error why => .document (.obj [("success", .bool false), ("message", .str why)])

def indexReply (setup : Setup) : Reply :=
  match setup.indexPage with
  | some page => .typed ContentType.html 200 page
  | none => .notFound

/-- Answers a request whose body has been received. -/
def handle (server : Server) (setup : Setup) (time : String) (call : Call) : Reply × Server :=
  match purpose server.service call.method call.uri.path with
  | .rules route params =>
    let s := serve server setup call route params
    (.ofResponse s.response, { server with data := s.data })
  | .stop => (stopReply time, { server with stopping := true })
  | .reload =>
    let (r, server) := reload server setup
    (reloadReply r, server)
  | .index => (indexReply setup, server)
  | .nothing => (.notFound, server)

/-- The reply to a body that is not received. -/
def notReceived (why : String) : Reply := .plain 413 why

/-- The reply to a body above the limit. -/
def tooLarge : Reply := notReceived Arrival.tooLong

/-- Receives the body and answers. -/
def receive (server : Server) (setup : Setup) (time : String) (a : Arrival) : Reply × Server :=
  match a.body with
  | .error why => (notReceived why, server)
  | .ok body => handle server setup time (a.withBody body)

theorem receive_ofCall (server : Server) (setup : Setup) (time : String) (call : Call) :
    receive server setup time (.ofCall call) =
      if Call.bodyLimit < call.body.size then (tooLarge, server)
      else handle server setup time call := by
  rw [receive, Arrival.body_ofCall]
  by_cases large : Call.bodyLimit < call.body.size
  · rw [if_pos large, if_pos large]
    rfl
  · rw [if_neg large, if_neg large]
    rfl

/-- Answers a request. -/
def answer (server : Server) (setup : Setup) (time : String) (a : Arrival) : Reply × Server :=
  let (reply, server) := receive server setup time a
  (reply.finish a.method, server)

end Server

end RuleService.Http
