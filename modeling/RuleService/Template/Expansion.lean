import RuleService.Template.Basic

namespace RuleService

/-- What templates draw on. -/
structure Host where
  engine : Engine
  /-- The text of a file. -/
  file : String → Except Failure String
  commands : Commands := Commands.builtIn

namespace Host

def readFile (h : Host) (path : String) : Effect String := do
  Effect.record (.read path)
  liftExcept (h.file path)

end Host

namespace Template

/-- The values of a function in turn; null stands where one is omitted. -/
def collect {α : Type} (f : α → Effect (Option Json)) : List Json → List α → Effect (List Json)
  | acc, [] => pure acc.reverse
  | acc, a :: rest => do
    let v ← f a
    collect f (v.getD .null :: acc) rest

mutual

/-- The value of a template, or none if it is omitted. The parts are expanded in the order in which they stand,
each over what the ones before left, and the first failure ends the expansion. -/
def expand (h : Host) (ctx : Context) : Template → Effect (Option Json)
  | verbatim v => pure (some v)
  | text pieces => some <$> expandPieces h.engine ctx pieces
  | items templates => do
    let vs ← expandItems h ctx templates
    pure (some (.arr vs))
  | object fields => do
    let kvs ← expandFields h ctx fields
    pure (some (.obj kvs))
  | repeated count element => do
    let n ← count.resolve h.engine ctx
    let vs ← collect (fun (i : Nat) => expand h (ctx.bind "i" (.int i)) element) [] (List.range n)
    pure (some (.arr vs))
  | rows file layout element => do
    let path ← expandPieces h.engine ctx file
    let content ← h.readFile path.display
    let vs ← collect (fun locals => expand h (ctx.bindAll locals) element) [] (layout.items content)
    pure (some (.arr vs))
  | statements script => do
    script.execute h.engine ctx
    pure none
  | choice condition yes no => do
    let v ← condition.value h.engine ctx
    if v.isTruthy then expand h ctx yes else expand h ctx no
  | omitted => pure none
  | faulty f => throw f
  | custom handler body inner => handler body (expand h ctx inner)

def expandItems (h : Host) (ctx : Context) : List Template → Effect (List Json)
  | [] => pure []
  | t :: rest => do
    let v ← expand h ctx t
    let vs ← expandItems h ctx rest
    pure (v.getD .null :: vs)

/-- The fields whose values are not omitted. -/
def expandFields (h : Host) (ctx : Context) : List (String × Template) → Effect Fields
  | [] => pure []
  | (key, t) :: rest => do
    let v ← expand h ctx t
    let kvs ← expandFields h ctx rest
    pure (match v with
      | some v => (key, v) :: kvs
      | none => kvs)

end

end Template

/-- Expands a value as a template. -/
def interpolate (h : Host) (ctx : Context) (v : Json) : Effect (Option Json) :=
  (Template.ofJson h.commands v).expand h ctx

/-- Expands a value as a document: null if it is omitted. -/
def interpolateDocument (h : Host) (ctx : Context) (v : Json) : Effect Json := do
  let out ← interpolate h ctx v
  pure (out.getD .null)

end RuleService
