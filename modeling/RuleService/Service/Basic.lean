import RuleService.Json.Reader
import RuleService.Service.Pattern
import RuleService.Service.Rule
import RuleService.Service.Verb

namespace RuleService

/-- An entry of a service. -/
structure Route where
  path : String
  verb : Verb
  rules : List Rule
  deriving Inhabited

/-- The routes of a service, in the order of its definition. -/
structure Service where
  routes : List Route := []
  deriving Inhabited

/-- Why a service cannot be loaded. -/
inductive ServiceFault where
  | notAnObject
  /-- The methods of a path are not given in an object. -/
  | invalidRoute (path : String)
  | invalidRule (path : String) (verb : Verb) (why : RuleFault)
  /-- The text is not JSON. -/
  | notJson (why : String)
  /-- The text cannot be read. -/
  | source (why : Failure)

def ServiceFault.message : ServiceFault → String
  | notAnObject => "service definition must be a JSON object"
  | invalidRoute path => "route " ++ path ++ ": methods must be declared in an object"
  | invalidRule path verb why => "route " ++ path ++ " " ++ verb.name ++ ": " ++ why.message
  | notJson why => "invalid service JSON: " ++ why
  | source why => why.message

namespace Route

/-- The rules in an entry: one, or a list. -/
def rulesOf : Json → Except RuleFault (List Rule)
  | .arr vs => vs.mapM Rule.ofJson
  | v => (fun rule => [rule]) <$> Rule.ofJson v

/-- The routes of one path. Methods that are not known are passed over. -/
def ofMethods (path : String) : Fields → Except ServiceFault (List Route)
  | [] => .ok []
  | (name, entry) :: rest =>
    match Verb.ofName? name with
    | none => ofMethods path rest
    | some verb => do
      let rules ← (rulesOf entry).mapError (.invalidRule path verb)
      let routes ← ofMethods path rest
      pure (⟨path, verb, rules⟩ :: routes)

/-- The routes of a definition. Keys that begin with `$` are passed over. -/
def ofPaths : Fields → Except ServiceFault (List Route)
  | [] => .ok []
  | (path, methods) :: rest =>
    if path.toList.head? == some '$' then ofPaths rest
    else match methods with
      | .obj methods => do
        let own ← ofMethods path methods
        let routes ← ofPaths rest
        pure (own ++ routes)
      | _ => .error (.invalidRoute path)

end Route

namespace Service

/-- The service a value defines. -/
def ofJson : Json → Except ServiceFault Service
  | .obj paths => Service.mk <$> Route.ofPaths paths
  | _ => .error .notAnObject

/-- The service a text defines. -/
def ofText (text : String) : Except ServiceFault Service := do
  let v ← (Json.parse text).mapError .notJson
  ofJson v

/-- Reads and loads the service at a path. -/
def load (read : String → Except Failure String) (path : String) : Except ServiceFault Service := do
  let text ← (read path).mapError .source
  ofText text

def size (service : Service) : Nat := service.routes.length

/-- Whether a route is declared under just this path. -/
def hasPath (service : Service) (path : String) : Bool := service.routes.any (·.path == path)

/-- The patterns of the routes, in their order. -/
def patterns (service : Service) : List Pattern :=
  service.routes.map fun route => Pattern.ofText route.path

/-- The first route for a method and a path, and what its pattern binds. -/
def find (service : Service) (method path : String) : Option (Route × Texts) :=
  let served := (service.routes.zip service.patterns).filter fun (route, _) =>
    route.verb.serves method
  served.findSome? fun (route, pattern) =>
    (pattern.match? path).map fun params => (route, params)

end Service

end RuleService
