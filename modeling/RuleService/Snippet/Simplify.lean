import RuleService.Snippet.Syntax

namespace RuleService.Snippet

mutual

/-- Whether evaluating an expression can have no effect. -/
def Expr.isPure : Expr → Bool
  | .unit | .bool _ | .int _ | .float _ | .char _ | .str _ | .var _ => true
  | .interpolated parts => allPure parts
  | .array items => allPure items
  | .map entries => entriesPure entries
  | .and l r | .or l r | .coalesce l r => l.isPure && r.isPure
  | .stmt s => s.isPure
  | _ => false

def allPure : List Expr → Bool
  | [] => true
  | e :: es => e.isPure && allPure es

def entriesPure : List (String × Expr) → Bool
  | [] => true
  | (_, e) :: es => e.isPure && entriesPure es

def Stmt.isPure : Stmt → Bool
  | .skip => true
  | .expr e => e.isPure
  | .block body => bodyPure body
  | .branch c yes no => c.isPure && bodyPure yes && bodyPure no
  | .switch e cases otherwise => e.isPure && casesPure cases && (match otherwise with
      | some s => s.isPure
      | none => true)
  | .loopOver _ _ source body => source.isPure && bodyPure body
  | .attempt body _ handler => bodyPure body && bodyPure handler
  | _ => false

def bodyPure : List Stmt → Bool
  | [] => true
  | s :: ss => s.isPure && bodyPure ss

def casesPure : List Case → Bool
  | [] => true
  | .case _ guard body :: cs => (match guard with
      | some e => e.isPure
      | none => true) && body.isPure && casesPure cs

end

/-- Drops pure statements; the last one stays if its value is needed. -/
def dropPure (needed : Bool) : List Stmt → List Stmt
  | [] => []
  | [s] => if s.isPure && !needed then [] else [s]
  | s :: ss => if s.isPure then dropPure needed ss else s :: dropPure needed ss

mutual

/-- Drops what does nothing inside a statement. -/
def Stmt.simplify (needed : Bool) : Stmt → Stmt
  | .block body => .block (dropPure needed (simplifyAll needed body))
  | .branch c yes no =>
    .branch c (dropPure needed (simplifyAll needed yes)) (dropPure needed (simplifyAll needed no))
  | .loopWhile c body => .loopWhile c (dropPure false (simplifyAll false body))
  | .loopAfter body going c => .loopAfter (dropPure false (simplifyAll false body)) going c
  | .loopOver name counter source body =>
    .loopOver name counter source (dropPure false (simplifyAll false body))
  | .attempt body name handler =>
    .attempt (dropPure false (simplifyAll false body)) name
      (dropPure false (simplifyAll false handler))
  | s => s

def simplifyAll (needed : Bool) : List Stmt → List Stmt
  | [] => []
  | s :: ss => s.simplify needed :: simplifyAll needed ss

end

/-- Drops what does nothing in a body whose value is needed, so an unknown name in such a statement goes
unnoticed. -/
def simplifyBody (body : List Stmt) : List Stmt := dropPure true (simplifyAll true body)

def Program.simplify (p : Program) : Program :=
  { functions := p.functions.map fun f => { f with body := simplifyBody f.body },
    body := simplifyBody p.body }

end RuleService.Snippet
