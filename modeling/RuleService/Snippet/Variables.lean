import RuleService.Snippet.Syntax

namespace RuleService.Snippet

/-- Names met so far: those declared, and the free ones in the order of their first use. -/
structure Names where
  declared : List String
  free : List String
  deriving Inhabited

namespace Names

def use (n : Names) (name : String) : Names :=
  if n.declared.contains name || n.free.contains name then n
  else { n with free := n.free ++ [name] }

def declare (n : Names) (name : String) : Names := { n with declared := name :: n.declared }

/-- Leaves a block: what it declared is forgotten. -/
def leave (inner outer : Names) : Names := { inner with declared := outer.declared }

end Names

mutual

def Expr.names (n : Names) : Expr → Names
  | .interpolated parts => exprsNames n parts
  | .array items => exprsNames n items
  | .map entries => entriesNames n entries
  | .var name => n.use name
  | .call _ _ args => exprsNames n args
  | .unary _ e => e.names n
  | .binary _ l r | .and l r | .or l r | .coalesce l r => r.names (l.names n)
  | .chain root links => linksNames (root.names n) links
  | .closure _ captures _ => captures.foldl Names.use n
  | .stmt s => (s.names n).leave n
  | _ => n

def exprsNames (n : Names) : List Expr → Names
  | [] => n
  | e :: es => exprsNames (e.names n) es

def entriesNames (n : Names) : List (String × Expr) → Names
  | [] => n
  | (_, e) :: es => entriesNames (e.names n) es

def optionNames (n : Names) : Option Expr → Names
  | none => n
  | some e => e.names n

def linksNames (n : Names) : List Link → Names
  | [] => n
  | .property .. :: ls => linksNames n ls
  | .method _ _ args :: ls => linksNames (exprsNames n args) ls
  | .index _ e :: ls => linksNames (e.names n) ls

/-- What a statement refers to and declares, in its order. -/
def Stmt.names (n : Names) : Stmt → Names
  | .skip | .again | .exportName .. => n
  | .expr e => e.names n
  | .declare _ _ name e => (e.names n).declare name
  | .assign _ target e => e.names (target.names n)
  | .block body => (bodyNames n body).leave n
  | .branch c yes no =>
    let n := c.names n
    let n := (bodyNames n yes).leave n
    (bodyNames n no).leave n
  | .switch e cases otherwise =>
    let n := casesNames (e.names n) cases
    match otherwise with
    | some s => (s.names n).leave n
    | none => n
  | .loopWhile c body =>
    let n := optionNames n c
    (bodyNames n body).leave n
  | .loopAfter body _ c =>
    let n := (bodyNames n body).leave n
    c.names n
  | .loopOver name counter source body =>
    let n := source.names n
    let inner := counter.elim n n.declare
    (bodyNames (inner.declare name) body).leave n
  | .leave e | .finish e | .raise e => optionNames n e
  | .attempt body name handler =>
    let n := (bodyNames n body).leave n
    (bodyNames (name.elim n n.declare) handler).leave n
  | .importModule e _ => e.names n

def bodyNames (n : Names) : List Stmt → Names
  | [] => n
  | s :: ss => bodyNames (s.names n) ss

def casesNames (n : Names) : List Case → Names
  | [] => n
  | .case _ guard body :: cs =>
    let n := optionNames n guard
    casesNames ((body.names n).leave n) cs

end

/-- The variables a function value takes from its surroundings. -/
def capturesOf (params : List String) (body : Stmt) : List String :=
  (body.names { declared := params, free := [] }).free

/-- The declared names in scope, the latest first, each with whether it is a constant. -/
abbrev Declared := List (String × Bool)

mutual

/-- Whether a statement assigns a declared constant, and what is declared after it. -/
def Stmt.assignsConstant (d : Declared) : Stmt → Bool × Declared
  | .declare constant _ name _ => (false, (name, constant) :: d)
  | .assign _ (.var name) _ => ((d.lookup name).getD false, d)
  | .block body => (bodyAssignsConstant d body, d)
  | .branch _ yes no => (bodyAssignsConstant d yes || bodyAssignsConstant d no, d)
  | .switch _ cases otherwise =>
    (casesAssignConstant d cases || (match otherwise with
      | some s => (s.assignsConstant d).1
      | none => false), d)
  | .loopWhile _ body => (bodyAssignsConstant d body, d)
  | .loopAfter body _ _ => (bodyAssignsConstant d body, d)
  | .loopOver name _ _ body => (bodyAssignsConstant ((name, false) :: d) body, d)
  | .attempt body name handler =>
    let inner := name.elim d fun n => (n, false) :: d
    (bodyAssignsConstant d body || bodyAssignsConstant inner handler, d)
  | _ => (false, d)

def bodyAssignsConstant (d : Declared) : List Stmt → Bool
  | [] => false
  | s :: ss =>
    let (bad, d) := s.assignsConstant d
    bad || bodyAssignsConstant d ss

def casesAssignConstant (d : Declared) : List Case → Bool
  | [] => false
  | .case _ _ body :: cs => (body.assignsConstant d).1 || casesAssignConstant d cs

end

end RuleService.Snippet
