import RuleService.Http.Server

namespace RuleService.Http

inductive AccessEntry where
  | request (method target client : String) (headers : Headers) (body : String)
  | reply (status : Nat) (headers : Headers) (body : String)
  deriving Repr, Inhabited

namespace AccessEntry

def ofCall (call : Call) : AccessEntry :=
  .request call.method (call.uri.whole.getD call.uri.path) call.ip call.headers
    (Text.ofBytes call.body)

def ofReply (r : Reply) : AccessEntry := .reply r.status r.headers r.body

end AccessEntry

namespace Server

/-- A reply on its way out of the inner service, where it gets no length yet. -/
def passOn (method : String) (r : Reply) : Reply :=
  if method == "CONNECT" && isSuccess r.status then { r with body := "" } else r

/-- The log around a service. It receives the body, and gives the request on with all of it in one piece.
A request whose body is not received is not noted. -/
def logged (next : Arrival → Reply × Server) (server : Server) (a : Arrival) :
    Reply × Server × List AccessEntry :=
  match a.body with
  | .error why => (notReceived why, server, [])
  | .ok body =>
    let (reply, server) := next { a with pieces := [.ok body] }
    (reply, server, [.ofCall (a.withBody body), .ofReply reply])

/-- Answers a request and notes it and its reply. -/
def answerLogged (server : Server) (setup : Setup) (time : String) (a : Arrival) :
    Reply × Server × List AccessEntry :=
  let next (a : Arrival) : Reply × Server :=
    let (reply, server) := receive server setup time a
    (passOn a.method reply, server)
  let (reply, server, log) := logged next server a
  (reply.finish a.method, server, log)

/-- Answers a request with the access log on or off, and gives what goes into the log. -/
def respond (server : Server) (accessLog : Bool) (setup : Setup) (time : String) (a : Arrival) :
    Reply × Server × List AccessEntry :=
  if accessLog then answerLogged server setup time a
  else
    let (reply, server) := answer server setup time a
    (reply, server, [])

/-- Answers a request that has its body. -/
def answerAs (server : Server) (accessLog : Bool) (setup : Setup) (time : String) (call : Call) :
    Reply × Server :=
  let (reply, server, _) := respond server accessLog setup time (.ofCall call)
  (reply, server)

end Server

end RuleService.Http
