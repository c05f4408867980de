import RuleService.Engine
import RuleService.Failure
import RuleService.Request
import RuleService.Response

namespace RuleService

/-- What snippets see of their surroundings and cannot change. -/
structure Context where
  request : Request := {}
  /-- Values bound by the expansion under way, each name once. -/
  locals : Fields := []
  deriving Inhabited

namespace Context

/-- Binds a name, over an outer binding of that name. -/
def bind (ctx : Context) (name : String) (v : Json) : Context :=
  { ctx with locals := ctx.locals.put name v }

def bindAll (ctx : Context) (fields : List (String × Json)) : Context :=
  { ctx with locals := ctx.locals.putAll fields }

end Context

/-- Something done for a request. -/
inductive Event where
  | evaluated (code : String) (locals : Fields)
  | executed (code : String) (locals : Fields)
  | read (path : String)
  | printed (text : String)
  deriving Repr, Inhabited

/-- What serving a request changes. -/
structure State where
  /-- The bag that all requests share. -/
  data : Fields := []
  response : Response := {}
  /-- What was done so far, the latest first. -/
  journal : List Event := []
  deriving Inhabited

/-- Something that changes the state and may fail; what it did before it failed stays done. -/
abbrev Effect := ExceptT Failure (StateM State)

namespace State

def record (s : State) (e : Event) : State := { s with journal := e :: s.journal }

/-- The texts printed so far, in order. -/
def printed (s : State) : List String :=
  s.journal.reverse.filterMap fun
    | .printed text => some text
    | _ => none

end State

namespace Effect

/-- Notes an event. -/
def record (e : Event) : Effect Unit := modify (State.record · e)

def reply (change : Response → Response) : Effect Unit :=
  modify fun s => { s with response := change s.response }

end Effect

end RuleService
