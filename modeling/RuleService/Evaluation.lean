import RuleService.Context

namespace RuleService

/-- The variables a snippet starts with. The locals come last, so they hide the others. -/
def bindingsFor (ctx : Context) (s : State) : Bindings :=
  [("data", .obj s.data), ("request", ctx.request.toJson), ("req", ctx.request.toJson),
    ("response", s.response.toJson), ("res", s.response.toJson)] ++ ctx.locals

/-- The bag after a run. A final `data` that is no object is dropped, and one without a JSON form is
a failure. -/
def committedData (code : String) (data : Fields) : Option Held → Except Failure Fields
  | none => .ok data
  | some none => .error (.evaluation code
      "\x60data\x60 is no longer JSON-compatible: it holds a value of another kind")
  | some (some (.obj fields)) => .ok fields
  | some (some _) => .ok data

/-- The response after a run: that of the first handle which differs from what it was. -/
def committedResponse (code : String) (binding : String → Option Held) (response : Response) :
    List String → Except Failure Response
  | [] => .ok response
  | name :: rest =>
    match binding name with
    | none => committedResponse code binding response rest
    | some held =>
      match held.bind Response.ofJson? with
      | none => .error (.evaluation code
          ("invalid \x60" ++ name ++ "\x60 handle: it does not stand for a response"))
      | some changed =>
        if changed.same response then committedResponse code binding response rest
        else .ok changed

/-- The names of the response, in the order in which they are looked at. -/
def handles : List String := ["res", "response"]

/-- The bag and the response after a run, and what went wrong with them. A bad bag leaves both as
they were, a bad handle the response. -/
def commit (code : String) (s : State) (binding : String → Option Held) :
    State × Except Failure Unit :=
  match committedData code s.data (binding "data") with
  | .error f => (s, .error f)
  | .ok data =>
    match committedResponse code binding s.response handles with
    | .error f => ({ s with data }, .error f)
    | .ok response => ({ s with data, response }, .ok ())

/-- The state and the result of a run that ended so. What it left is committed, and only then its outcome is
told. -/
def settle (code : String) (s : State) (finish : Finish) : State × Except Failure Held :=
  let s := { s with journal := (finish.printed.map Event.printed).reverse ++ s.journal }
  match commit code s finish.binding with
  | (s, .error f) => (s, .error f)
  | (s, .ok ()) => (s, finish.outcome.mapError (.evaluation code))

/-- Runs a snippet in one of the two ways of an engine, on copies of the bag and of the response. -/
def runSnippet (way : String → Bindings → Finish) (ctx : Context) (code : String) : Effect Held :=
  ExceptT.mk fun s =>
    let (after, r) := settle code s (way code (bindingsFor ctx s))
    (r, after)

/-- The value of an expression. -/
def evaluate (engine : Engine) (ctx : Context) (code : String) : Effect Json := do
  Effect.record (.evaluated code ctx.locals)
  match ← runSnippet engine.expression ctx code with
  | some v => pure v
  | none => throw (.evaluation code "result is not JSON-compatible: it is a value of another kind")

/-- Runs a statement. -/
def execute (engine : Engine) (ctx : Context) (code : String) : Effect Unit := do
  Effect.record (.executed code ctx.locals)
  let _ ← runSnippet engine.script ctx code

end RuleService
