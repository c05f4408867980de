import RuleService.Double.Basic

namespace RuleService.Snippet

mutual

inductive Expr where
  | unit
  | bool (b : Bool)
  | int (n : Int)
  | float (d : Double)
  | char (c : Char)
  | str (s : String)
  /-- A text with embedded parts, each turned into text and joined. -/
  | interpolated (parts : List Expr)
  | array (items : List Expr)
  | map (entries : List (String × Expr))
  | var (name : String)
  /-- A name in a module; the path leads to the module. -/
  | qualified (path : List String) (name : String)
  | this
  | call (path : List String) (name : String) (args : List Expr)
  | unary (operator : String) (operand : Expr)
  | binary (operator : String) (left right : Expr)
  | and (left right : Expr)
  | or (left right : Expr)
  /-- The left value, or the right one if the left is unit. -/
  | coalesce (left right : Expr)
  /-- A value and what is selected in it, step by step. -/
  | chain (root : Expr) (links : List Link)
  /-- A function value; it captures the listed variables. -/
  | closure (params captures : List String) (body : Stmt)
  /-- A statement used for its value. -/
  | stmt (s : Stmt)

/-- One step of a selection. A `safe` step on unit ends the selection with unit. -/
inductive Link where
  | property (safe : Bool) (name : String)
  | method (safe : Bool) (name : String) (args : List Expr)
  | index (safe : Bool) (position : Expr)

inductive Stmt where
  | skip
  | expr (e : Expr)
  | declare (constant exported : Bool) (name : String) (value : Expr)
  /-- Assigns a variable or a place in one; with an operator, the old value is its left operand. -/
  | assign (operator : Option String) (target value : Expr)
  | block (body : List Stmt)
  | branch (condition : Expr) (yes no : List Stmt)
  | switch (subject : Expr) (cases : List Case) (otherwise : Option Stmt)
  /-- Repeats while the condition, if any, holds. -/
  | loopWhile (condition : Option Expr) (body : List Stmt)
  /-- Repeats after the body for as long as the condition equals `going`. -/
  | loopAfter (body : List Stmt) (going : Bool) (condition : Expr)
  | loopOver (name : String) (counter : Option String) (source : Expr) (body : List Stmt)
  | leave (value : Option Expr)
  | again
  | finish (value : Option Expr)
  | raise (value : Option Expr)
  | attempt (body : List Stmt) (name : Option String) (handler : List Stmt)
  | importModule (source : Expr) (name : Option String)
  | exportName (name published : String)

/-- A case of a switch: the literals it stands for, its condition, and what it runs. -/
inductive Case where
  | case (literals : List Expr) (guard : Option Expr) (body : Stmt)

end

instance : Inhabited Expr := ⟨.unit⟩
instance : Inhabited Stmt := ⟨.skip⟩
instance : Inhabited Link := ⟨.property false ""⟩
instance : Inhabited Case := ⟨.case [] none .skip⟩

/-- A named function. -/
structure Function where
  name : String
  params : List String
  isPrivate : Bool
  body : List Stmt
  deriving Inhabited

/-- A script: its functions, and the statements outside them. -/
structure Program where
  functions : List Function
  body : List Stmt
  deriving Inhabited

/-- A statement that is complete without a semicolon. -/
def Stmt.isSelfTerminated : Stmt → Bool
  | block _ | branch .. | switch .. | loopWhile .. | loopOver .. | attempt .. => true
  | _ => false

end RuleService.Snippet
