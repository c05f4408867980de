import RuleService.Text.Blank
import RuleService.Snippet.Token
import RuleService.Snippet.Variables

namespace RuleService.Snippet.Parser

abbrev Parse := StateT (List Token) (Except Malformation)

/-- What the surroundings of a phrase permit. -/
structure Place where
  /-- Blocks hold exactly one expression statement. -/
  expressionsOnly : Bool := false
  /-- Blocks and loops may stand as operands. -/
  blockOperands : Bool := true
  inFunction : Bool := false
  inLoop : Bool := false
  /-- A `|` separates alternatives here. -/
  barSeparates : Bool := false
  /-- How deeply the phrase is nested, and how deeply it may be. -/
  depth : Nat := 0
  deepest : Nat := 64
  deriving Inhabited

def refuse {α : Type} (m : Malformation) : Parse α := fun _ => .error m

def describe : Option Token → String
  | none => "end of text"
  | some (.symbol s) | some (.keyword s) | some (.reserved s) | some (.name s) => s
  | some _ => "literal"

/-- The place of a phrase inside another one. -/
def Place.inside (place : Place) : Parse Place :=
  if place.depth < place.deepest then pure { place with depth := place.depth + 1 }
  else refuse (.unexpected "depth of nesting")

def peek : Parse (Option Token) := do return (← get).head?

def advance : Parse Unit := modify List.tail

def unexpected {α : Type} : Parse α := do refuse (.unexpected (describe (← peek)))

/-- Takes a symbol if it comes next. -/
def takeSymbol (s : String) : Parse Bool := do
  if (← peek) == some (.symbol s) then advance; return true
  else return false

def takeKeyword (s : String) : Parse Bool := do
  if (← peek) == some (.keyword s) then advance; return true
  else return false

def expectSymbol (s : String) : Parse Unit := do
  unless ← takeSymbol s do unexpected

def expectKeyword (s : String) : Parse Unit := do
  unless ← takeKeyword s do unexpected

def expectName : Parse String := do
  match ← peek with
  | some (.name s) => advance; return s
  | _ => unexpected

/-- The rank of an operator; a higher one binds more tightly. -/
def rank? (place : Place) : Token → Option (String × Nat)
  | .symbol s =>
    match s with
    | "||" | "^" => some (s, 30)
    | "|" => if place.barSeparates then none else some (s, 30)
    | "&&" | "&" => some (s, 60)
    | "==" | "!=" => some (s, 90)
    | "!in" => some (s, 110)
    | "<" | "<=" | ">" | ">=" => some (s, 130)
    | "??" => some (s, 135)
    | ".." | "..=" => some (s, 140)
    | "+" | "-" => some (s, 150)
    | "*" | "/" | "%" => some (s, 180)
    | "**" => some (s, 190)
    | "<<" | ">>" => some (s, 210)
    | _ => none
  | .keyword "in" => some ("in", 110)
  | _ => none

def groupsRight (operator : String) : Bool := operator == "**"

/-- The operator that an assignment applies; none when the next token assigns nothing. -/
def assignment? : Option Token → Option (Option String)
  | some (.symbol s) =>
    match s with
    | "=" => some none
    | "+=" => some (some "+")
    | "-=" => some (some "-")
    | "*=" => some (some "*")
    | "/=" => some (some "/")
    | "%=" => some (some "%")
    | "**=" => some (some "**")
    | "<<=" => some (some "<<")
    | ">>=" => some (some ">>")
    | "&=" => some (some "&")
    | "|=" => some (some "|")
    | "^=" => some (some "^")
    | _ => none
  | _ => none

/-- Literals that are never true or false. -/
def isNoCondition : Expr → Bool
  | .unit | .int _ | .float _ | .char _ | .str _ | .interpolated _ | .array _ | .map _ => true
  | _ => false

def requireCondition (e : Expr) : Parse Expr := do
  if isNoCondition e then refuse (.unexpected "value that is not a boolean") else return e

/-- Literals that nothing can be drawn from. -/
def isNoSource : Expr → Bool
  | .unit | .bool _ | .int _ | .float _ | .char _ | .and .. | .or .. => true
  | _ => false

/-- Literals no index of an array, text or number is. -/
def isNoPosition : Expr → Bool
  | .unit | .bool _ | .float _ | .char _ | .str _ | .interpolated _ | .and .. | .or .. => true
  | _ => false

/-- Literals no key of a map is. -/
def isNoKey : Expr → Bool
  | .unit | .bool _ | .float _ | .char _ | .int _ | .and .. | .or .. => true
  | _ => false

def checkPosition (target position : Expr) : Parse Unit := do
  let bad := match target with
    | .map _ => isNoKey position
    | .int _ | .array _ | .str _ | .interpolated _ => isNoPosition position
    | _ => false
  if bad then refuse (.unexpected "kind of index")

def isPlace : Link → Bool
  | .method .. => false
  | _ => true

/-- Variables, and places in them, can be assigned. -/
def isAssignable : Expr → Bool
  | .var _ | .this => true
  | .chain (.var _) links | .chain .this links => links.all isPlace
  | _ => false

def isLiteral : Expr → Bool
  | .unit | .bool _ | .int _ | .float _ | .char _ | .str _ => true
  | .array items => items.attach.all fun ⟨e, _⟩ => isLiteral e
  | .binary op l r => (op == ".." || op == "..=") && isLiteral l && isLiteral r
  | _ => false

def combine (operator : String) (l r : Expr) : Parse Expr := do
  match operator with
  | "&&" => return .and (← requireCondition l) (← requireCondition r)
  | "||" => return .or (← requireCondition l) (← requireCondition r)
  | "??" => return .coalesce l r
  | _ => return .binary operator l r

def greatestInt : Int := Int.pow 2 63 - 1

/-- Whether an operand cannot begin here, so that a range before it has no end. -/
def endsOperand : Option Token → Bool
  | none => true
  | some (.symbol s) => [")", "]", "\x7d", ",", ";", "\x7b", "=>"].contains s
  | _ => false

/-- Names separated by commas, up to a closing symbol. -/
def names (closing : String) : Nat → Parse (List String)
  | 0 => unexpected
  | fuel + 1 => do
    if ← takeSymbol closing then return []
    let name ← expectName
    if ← takeSymbol "," then return name :: (← names closing fuel)
    expectSymbol closing
    return [name]

def requireDistinct (xs : List String) : Parse Unit := do
  if xs.eraseDups.length != xs.length then refuse (.unexpected "repeated name")

mutual

def expr (place : Place) : Nat → Parse Expr
  | 0 => unexpected
  | fuel + 1 => do
    let place ← place.inside
    let left ← unary place fuel
    binary place 0 left fuel

/-- Joins operators of at least a rank to the operand on their left. -/
def binary (place : Place) (floor : Nat) (left : Expr) : Nat → Parse Expr
  | 0 => unexpected
  | fuel + 1 => do
    match (← peek).bind (rank? place) with
    | none => return left
    | some (operator, rank) =>
      if rank < floor || (rank == floor && !groupsRight operator) then return left
      advance
      let right ←
        if (operator == ".." || operator == "..=") && endsOperand (← peek) then
          pure (.int greatestInt)
        else unary place fuel
      let right ←
        match (← peek).bind (rank? place) with
        | some (_, next) =>
          if rank < next || (rank == next && groupsRight operator) then
            binary (← place.inside) rank right fuel
          else pure right
        | none => pure right
      binary (← place.inside) floor (← combine operator left right) fuel

def unary (place : Place) : Nat → Parse Expr
  | 0 => unexpected
  | fuel + 1 => do
    match ← peek with
    | some (.symbol "-") =>
      advance
      match ← unary (← place.inside) fuel with
      | .int n => return if n == -Int.pow 2 63 then .float (Double.ofInt n).neg else .int (-n)
      | .float d => return .float d.neg
      | e => return .unary "-" e
    | some (.symbol "+") =>
      advance
      match ← unary (← place.inside) fuel with
      | .int n => return .int n
      | .float d => return .float d
      | e => return .unary "+" e
    | some (.symbol "!") =>
      advance
      return .unary "!" (← unary (← place.inside) fuel)
    | some (.symbol "..") | some (.symbol "..=") => unexpected
    | _ => primary (← place.inside) fuel

def primary (place : Place) : Nat → Parse Expr
  | 0 => unexpected
  | fuel + 1 => do
    let token ← peek
    let simple (e : Expr) : Parse Expr := do
      advance
      selections place e [] fuel
    match token with
    | some (.int n) => simple (.int n)
    | some (.float d) => simple (.float d)
    | some (.char c) => simple (.char c)
    | some (.str s) => simple (.str s)
    | some (.keyword "true") => simple (.bool true)
    | some (.keyword "false") => simple (.bool false)
    | some (.piece _) => do
      let parts ← pieces place fuel
      selections place (.interpolated parts) [] fuel
    | some (.symbol "(") =>
      advance
      if ← takeSymbol ")" then selections place .unit [] fuel
      else
        let e ← expr { (← place.inside) with barSeparates := false } fuel
        expectSymbol ")"
        selections place e [] fuel
    | some (.symbol "[") =>
      advance
      let items ← exprs { (← place.inside) with barSeparates := false } "]" fuel
      selections place (.array items) [] fuel
    | some (.symbol "#\x7b") =>
      advance
      let entries ← entries { (← place.inside) with barSeparates := false } fuel
      requireDistinct (entries.map (·.1))
      selections place (.map entries) [] fuel
    | some (.symbol "\x7b") =>
      if place.blockOperands then
        let body ← block (← place.inside) fuel
        selections place (.stmt (.block body)) [] fuel
      else unexpected
    | some (.keyword "if") => do
      advance
      let s ← branch (← place.inside) fuel
      selections place (.stmt s) [] fuel
    | some (.keyword "switch") => do
      advance
      let s ← switch (← place.inside) fuel
      selections place (.stmt s) [] fuel
    | some (.keyword "loop") | some (.keyword "while") | some (.keyword "do")
    | some (.keyword "for") =>
      if place.blockOperands then
        let s ← stmt (← place.inside) fuel
        selections place (.stmt s) [] fuel
      else unexpected
    | some (.symbol "|") =>
      advance
      let params ← names "|" fuel
      requireDistinct params
      closure (← place.inside) params fuel
    | some (.symbol "||") =>
      advance
      closure (← place.inside) [] fuel
    | some (.name s) =>
      advance
      named place [] s fuel
    | some (.reserved "this") =>
      if place.inFunction then simple .this else unexpected
    | some (.reserved s) =>
      advance
      if Token.functionWords.contains s && (← peek) == some (.symbol "(") then
        named place [] s fuel
      else unexpected
    | _ => unexpected

/-- A name after the modules on its path: a call, a longer path, or a variable. -/
def named (place : Place) (path : List String) (name : String) : Nat → Parse Expr
  | 0 => unexpected
  | fuel + 1 => do
    if ← takeSymbol "(" then
      let args ← exprs { (← place.inside) with barSeparates := false } ")" fuel
      selections place (.call path name args) [] fuel
    else if ← takeSymbol "::" then
      let next ← expectName
      named place (path ++ [name]) next fuel
    else
      selections place (if path.isEmpty then .var name else .qualified path name) [] fuel

/-- The selections after an operand; `links` holds those read, in reverse. -/
def selections (place : Place) (root : Expr) (links : List Link) : Nat → Parse Expr
  | 0 => unexpected
  | fuel + 1 => do
    match ← peek with
    | some (.symbol ".") => selection (← place.inside) root links false fuel
    | some (.symbol "?.") => selection (← place.inside) root links true fuel
    | some (.symbol "[") =>
      advance
      let place ← place.inside
      let e ← expr { place with barSeparates := false } fuel
      if links.isEmpty then checkPosition root e
      expectSymbol "]"
      selections place root (.index false e :: links) fuel
    | some (.symbol "?[") =>
      advance
      let place ← place.inside
      let e ← expr { place with barSeparates := false } fuel
      if links.isEmpty then checkPosition root e
      expectSymbol "]"
      selections place root (.index true e :: links) fuel
    | _ => return if links.isEmpty then root else .chain root links.reverse

/-- A property or a method after its dot. -/
def selection (place : Place) (root : Expr) (links : List Link) (safe : Bool) :
    Nat → Parse Expr
  | 0 => unexpected
  | fuel + 1 => do
    advance
    let (name, mustCall) ← match ← peek with
      | some (.name s) => pure (s, false)
      | some (.reserved s) =>
        if Token.functionWords.contains s then pure (s, true) else unexpected
      | _ => unexpected
    advance
    if ← takeSymbol "(" then
      let args ← exprs { place with barSeparates := false } ")" fuel
      selections place root (.method safe name args :: links) fuel
    else if mustCall then unexpected
    else selections place root (.property safe name :: links) fuel

/-- Expressions separated by commas, up to a closing symbol; a comma may stand before it. -/
def exprs (place : Place) (closing : String) : Nat → Parse (List Expr)
  | 0 => unexpected
  | fuel + 1 => do
    if ← takeSymbol closing then return []
    let e ← expr place fuel
    if ← takeSymbol "," then return e :: (← exprs place closing fuel)
    expectSymbol closing
    return [e]

def entries (place : Place) : Nat → Parse (List (String × Expr))
  | 0 => unexpected
  | fuel + 1 => do
    if ← takeSymbol "\x7d" then return []
    let key ← match ← peek with
      | some (.name s) | some (.str s) => pure s
      | _ => unexpected
    advance
    expectSymbol ":"
    let e ← expr place fuel
    if ← takeSymbol "," then return (key, e) :: (← entries place fuel)
    expectSymbol "\x7d"
    return [(key, e)]

/-- The pieces of a text and the blocks between them. -/
def pieces (place : Place) : Nat → Parse (List Expr)
  | 0 => unexpected
  | fuel + 1 => do
    match ← peek with
    | some (.piece s) =>
      advance
      let body ← block (← place.inside) fuel
      return .str s :: .stmt (.block body) :: (← pieces place fuel)
    | some (.lastPiece s) =>
      advance
      return [.str s]
    | _ => unexpected

/-- A function value after its parameters. -/
def closure (place : Place) (params : List String) : Nat → Parse Expr
  | 0 => unexpected
  | fuel + 1 => do
    let body ← stmt
      { place with inFunction := true, inLoop := false, blockOperands := true } fuel
    return .closure params (capturesOf params body) body

/-- A block with its braces. -/
def block (place : Place) : Nat → Parse (List Stmt)
  | 0 => unexpected
  | fuel + 1 => do
    expectSymbol "\x7b"
    let place := { (← place.inside) with barSeparates := false }
    if place.expressionsOnly then
      let s ← exprStmt place fuel
      expectSymbol "\x7d"
      return [s]
    else stmts place fuel

/-- The statements up to a closing brace. -/
def stmts (place : Place) : Nat → Parse (List Stmt)
  | 0 => unexpected
  | fuel + 1 => do
    if ← takeSymbol "\x7d" then return []
    if ← takeSymbol ";" then return ← stmts place fuel
    let s ← stmt place fuel
    if (← peek) == some (.symbol "\x7d") then
      advance
      return [s]
    if !s.isSelfTerminated then expectSymbol ";"
    return s :: (← stmts place fuel)

/-- An expression, or an assignment to one. -/
def exprStmt (place : Place) : Nat → Parse Stmt
  | 0 => unexpected
  | fuel + 1 => do
    let e ← expr place fuel
    match assignment? (← peek) with
    | none => return .expr e
    | some operator =>
      if isAssignable e then
        advance
        return .assign operator e (← expr place fuel)
      else unexpected

/-- A condition and its blocks, after `if`. -/
def branch (place : Place) : Nat → Parse Stmt
  | 0 => unexpected
  | fuel + 1 => do
    let c ← requireCondition (← expr place fuel)
    let yes ← block place fuel
    if ← takeKeyword "else" then
      if ← takeKeyword "if" then return .branch c yes [← branch place fuel]
      return .branch c yes (← block place fuel)
    return .branch c yes []

/-- The subject and the cases of a switch, after `switch`. -/
def switch (place : Place) : Nat → Parse Stmt
  | 0 => unexpected
  | fuel + 1 => do
    let subject ← expr place fuel
    expectSymbol "\x7b"
    let (found, otherwise) ← cases { place with barSeparates := false } fuel
    return .switch subject found otherwise

def cases (place : Place) : Nat → Parse (List Case × Option Stmt)
  | 0 => unexpected
  | fuel + 1 => do
    if ← takeSymbol "\x7d" then return ([], none)
    let isDefault ← takeSymbol "_"
    let literals ← if isDefault then pure [] else alternatives place fuel
    let guard ← if !isDefault && (← takeKeyword "if") then
        pure (some (← requireCondition (← expr place fuel)))
      else pure none
    expectSymbol "=>"
    let body ←
      if place.expressionsOnly then pure (.expr (← expr place fuel)) else stmt place fuel
    let separated ← takeSymbol ","
    let closes := (← peek) == some (.symbol "\x7d")
    if !separated && !closes && !body.isSelfTerminated then unexpected
    if isDefault then
      expectSymbol "\x7d"
      return ([], some body)
    let (rest, otherwise) ← cases place fuel
    return (.case literals guard body :: rest, otherwise)

/-- The literals of a case, separated by bars. -/
def alternatives (place : Place) : Nat → Parse (List Expr)
  | 0 => unexpected
  | fuel + 1 => do
    let e ← expr { place with barSeparates := true } fuel
    if !isLiteral e then unexpected
    if ← takeSymbol "|" then return e :: (← alternatives place fuel)
    return [e]

def stmt (place : Place) : Nat → Parse Stmt
  | 0 => unexpected
  | fuel + 1 => do
    let place := { place with barSeparates := false }
    /- An operand that may be left out before the end of the statement. -/
    let optional : Parse (Option Expr) := do
      match ← peek with
      | none | some (.symbol ";") | some (.symbol "\x7d") => return none
      | _ => return some (← expr place fuel)
    let declaration (constant exported : Bool) : Parse Stmt := do
      let name ← expectName
      if ← takeSymbol "=" then
        return .declare constant exported name (← expr place fuel)
      return .declare constant exported name .unit
    match ← peek with
    | none => return .skip
    | some (.symbol ";") => do
      advance
      return .skip
    | some (.symbol "\x7b") => return .block (← block place fuel)
    | some (.keyword "if") => do
      advance
      branch (← place.inside) fuel
    | some (.keyword "switch") => do
      advance
      switch (← place.inside) fuel
    | some (.keyword "while") => do
      advance
      let c ← requireCondition (← expr place fuel)
      return .loopWhile (some c) (← block { place with inLoop := true } fuel)
    | some (.keyword "loop") => do
      advance
      return .loopWhile none (← block { place with inLoop := true } fuel)
    | some (.keyword "do") => do
      advance
      let body ← block { place with inLoop := true } fuel
      let going ← takeKeyword "while"
      unless going do expectKeyword "until"
      return .loopAfter body going (← requireCondition (← expr place fuel))
    | some (.keyword "for") => do
      advance
      let (name, counter) ←
        if ← takeSymbol "(" then
          let name ← expectName
          expectSymbol ","
          let counter ← expectName
          expectSymbol ")"
          requireDistinct [name, counter]
          pure (name, some counter)
        else pure (← expectName, none)
      expectKeyword "in"
      let source ← expr place fuel
      if isNoSource source then unexpected
      return .loopOver name counter source (← block { place with inLoop := true } fuel)
    | some (.keyword "break") => do
      unless place.inLoop do unexpected
      advance
      return .leave (← optional)
    | some (.keyword "continue") => do
      unless place.inLoop do unexpected
      advance
      return .again
    | some (.keyword "return") => do
      advance
      return .finish (← optional)
    | some (.keyword "throw") => do
      advance
      return .raise (← optional)
    | some (.keyword "try") => do
      advance
      let body ← block place fuel
      expectKeyword "catch"
      let name ←
        if ← takeSymbol "(" then
          let name ← expectName
          expectSymbol ")"
          pure (some name)
        else pure none
      return .attempt body name (← block place fuel)
    | some (.keyword "let") => do
      advance
      declaration false false
    | some (.keyword "const") => do
      advance
      declaration true false
    | some (.keyword "import") => do
      advance
      let source ← expr place fuel
      if ← takeKeyword "as" then return .importModule source (some (← expectName))
      return .importModule source none
    | some (.keyword "export") => do
      if place.inFunction then unexpected
      advance
      if ← takeKeyword "let" then declaration false true
      else if ← takeKeyword "const" then declaration true true
      else
        let name ← expectName
        if ← takeKeyword "as" then return .exportName name (← expectName)
        return .exportName name name
    | some (.keyword "fn") | some (.keyword "private") => unexpected
    | _ => exprStmt place fuel

end

/-- A function definition, after `fn`. -/
def function (isPrivate : Bool) (fuel : Nat) : Parse Function := do
  let name ← expectName
  expectSymbol "("
  let params ← names ")" fuel
  requireDistinct params
  let body ← block { inFunction := true, deepest := 32 } fuel
  return ⟨name, params, isPrivate, body⟩

/-- The functions and statements of a script. -/
def script : Nat → Parse Program
  | 0 => unexpected
  | fuel + 1 => do
    match ← peek with
    | none => return ⟨[], []⟩
    | some (.symbol ";") => do
      advance
      script fuel
    | some (.keyword "fn") => do
      advance
      let f ← function false fuel
      let rest ← script fuel
      add f rest
    | some (.keyword "private") => do
      advance
      expectKeyword "fn"
      let f ← function true fuel
      let rest ← script fuel
      add f rest
    | _ => do
      let s ← stmt {} fuel
      match ← peek with
      | none => return ⟨[], [s]⟩
      | _ =>
        if !s.isSelfTerminated then expectSymbol ";"
        let rest ← script fuel
        return { rest with body := s :: rest.body }
where
  /-- Adds a function unless one of its name and number of parameters is there. -/
  add (f : Function) (p : Program) : Parse Program := do
    if p.functions.any fun g => g.name == f.name && g.params.length == f.params.length then
      unexpected
    else return { p with functions := f :: p.functions }

/-- How deep the parser may go on a list of tokens, which bounds its functions in their first argument. -/
def bound (tokens : List Token) : Nat := 12 * tokens.length + 24

end Parser

/-- Reads a script. -/
def Program.ofText (text : String) : Except Malformation Program := do
  let tokens ← Token.ofText text
  let (program, _) ← Parser.script (Parser.bound tokens) tokens
  if bodyAssignsConstant [] program.body ||
      program.functions.any (fun f => bodyAssignsConstant [] f.body) then
    .error (.unexpected "assignment to a constant")
  else pure program

/-- Reads a single expression. Statements may only stand in it as the one part of a block. -/
def Expr.ofText (text : String) : Except Malformation Expr := do
  let tokens ← Token.ofText text
  let place : Parser.Place := { expressionsOnly := true, blockOperands := false }
  let (e, rest) ← Parser.expr place (Parser.bound tokens) tokens
  match rest with
  | [] => pure e
  | t :: _ => .error (.unexpected (Parser.describe (some t)))

end RuleService.Snippet
