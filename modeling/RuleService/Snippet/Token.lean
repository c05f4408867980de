import RuleService.Double.Numeral

namespace RuleService.Snippet

inductive Token where
  | int (n : Int)
  | float (d : Double)
  | char (c : Char)
  | str (s : String)
  /-- A piece of text before an embedded block. -/
  | piece (s : String)
  /-- The last piece of a text with embedded blocks. -/
  | lastPiece (s : String)
  | name (s : String)
  | keyword (s : String)
  /-- A word or symbol set aside by the language. -/
  | reserved (s : String)
  | symbol (s : String)
  deriving DecidableEq, Repr, Inhabited

namespace Token

def keywords : List String :=
  ["true", "false", "let", "const", "if", "else", "switch", "do", "while", "until", "loop", "for",
    "in", "continue", "break", "return", "throw", "try", "catch", "import", "export", "as", "fn",
    "private"]

/-- Words that are set aside, except that some of them name functions. -/
def reservedWords : List String :=
  ["var", "static", "shared", "goto", "exit", "match", "case", "default", "public", "protected",
    "new", "use", "with", "is", "module", "package", "super", "thread", "spawn", "go", "sync",
    "async", "await", "yield", "void", "null", "nil", "this", "This", "print", "debug", "type_of",
    "eval", "Fn", "call", "curry", "is_shared", "is_def_var", "is_def_fn"]

/-- The reserved words that name functions. -/
def functionWords : List String :=
  ["print", "debug", "type_of", "eval", "Fn", "call", "curry", "is_shared", "is_def_var",
    "is_def_fn"]

/-- The symbols, those with more characters first. -/
def symbols : List String :=
  ["..=", "**=", "<<=", ">>=",
    "+=", "-=", "*=", "/=", "%=", "**", "<<", ">>", "&=", "|=", "^=", "==", "!=", "<=", ">=", "&&",
    "||", "=>", "::", "..", "?.", "?[", "??", "#\x7b",
    "+", "-", "*", "/", "%", "&", "|", "^", "=", "<", ">", "!", ".", ",", ";", ":", "(", ")", "[",
    "]", "\x7b", "\x7d"]

/-- Symbols with no use, longest first; they win over the shorter ones with a use. -/
def unusedSymbols : List String :=
  ["...", "===", "!==", "++", "--", "->", "<-", ":=", ":;", "*)", "(*", "!.", "?", "~", "@", "$",
    "#!", "#"]

/-- Whether a sign right after this token belongs to a number rather than joins two operands. -/
def allowsSign : Token → Bool
  | symbol s => !(s == ")" || s == "]" || s == "\x7d")
  | keyword s => !(s == "true" || s == "false")
  | reserved s => !(functionWords.contains s || s == "this")
  | piece _ => true
  | _ => false

end Token

/-- Why a text is not a program. -/
inductive Malformation where
  | unexpectedCharacter (c : Char)
  | unterminatedText
  | malformedNumber
  | malformedCharacter
  | malformedEscape
  | malformedName
  | unexpected (what : String)
  deriving DecidableEq, Repr, Inhabited

def Malformation.message : Malformation → String
  | unexpectedCharacter c => "unexpected " ++ String.singleton c
  | unterminatedText => "open string is not terminated"
  | malformedNumber => "invalid number"
  | malformedCharacter => "invalid character"
  | malformedEscape => "invalid escape sequence"
  | malformedName => "variable name is not proper"
  | unexpected what => "unexpected " ++ what

namespace Lexer

abbrev Scan (α : Type) := Except Malformation (α × List Char)

def isNameStart (c : Char) : Bool := c.isAlpha || c == '_'

def isNamePart (c : Char) : Bool := c.isAlphanum || c == '_'

def isSpace (c : Char) : Bool := Text.isBlank c

/-- A name has a letter, and no digit before it. -/
def isProperName (cs : List Char) : Bool :=
  match cs.dropWhile (· == '_') with
  | c :: _ => c.isAlpha
  | [] => false

def wordToken (cs : List Char) : Except Malformation Token :=
  let s := String.ofList cs
  if Token.keywords.contains s then .ok (.keyword s)
  else if s == "_" then .ok (.symbol s)
  else if Token.reservedWords.contains s then .ok (.reserved s)
  else if isProperName cs then .ok (.name s)
  else .error .malformedName

/-- The digits of a whole number in a base up to 16. -/
def baseDigit? (base : Nat) (c : Char) : Option Nat :=
  let v :=
    if c.isDigit then some (c.toNat - '0'.toNat)
    else if 'a' ≤ c && c ≤ 'f' then some (c.toNat - 'a'.toNat + 10)
    else if 'A' ≤ c && c ≤ 'F' then some (c.toNat - 'A'.toNat + 10)
    else none
  v.filter (· < base)

def natInBase? (base : Nat) (cs : List Char) : Option Nat :=
  if cs.isEmpty then none
  else cs.foldl (fun acc c => acc.bind fun n => (baseDigit? base c).map (n * base + ·)) (some 0)

/-- A word of 64 bits read as a signed number. -/
def signed64 (n : Nat) : Int := if n < Nat.pow 2 63 then n else (n : Int) - Int.pow 2 64

def takeNumberDigits (cs : List Char) : List Char × List Char :=
  ((cs.takeWhile (fun c => c.isDigit || c == '_')).filter (· != '_'),
    cs.dropWhile (fun c => c.isDigit || c == '_'))

/-- The fraction of a number, if what follows its digits is one. -/
def takeFraction (cs : List Char) : Option (List Char × List Char) :=
  match cs with
  | '.' :: c :: rest =>
    if c.isDigit then
      let (ds, rest) := takeNumberDigits (c :: rest)
      some (ds, rest)
    else if c == '_' || c == '.' || c.isAlpha then none
    else some ([], c :: rest)
  | ['.'] => some ([], [])
  | _ => none

/-- The exponent of a number, if what follows is one. -/
def takeExponent (cs : List Char) : Option (List Char × List Char) :=
  match cs with
  | 'e' :: c :: rest =>
    if c.isDigit then
      let (ds, rest) := takeNumberDigits (c :: rest)
      some (ds, rest)
    else if c == '+' || c == '-' then
      let (ds, rest) := takeNumberDigits rest
      some (c :: ds, rest)
    else none
  | _ => none

/-- A decimal number, after an optional sign; one beyond the integers is a float. -/
def scanDecimal (negative : Bool) (cs : List Char) : Scan Token :=
  let (whole, rest) := takeNumberDigits cs
  let fraction := takeFraction rest
  let rest := (fraction.map (·.2)).getD rest
  let exponent := takeExponent rest
  let rest := (exponent.map (·.2)).getD rest
  let n : Int := Double.natOfDigits whole
  let n := if negative then -n else n
  if fraction.isNone && exponent.isNone && -Int.pow 2 63 ≤ n && n < Int.pow 2 63 then
    .ok (.int n, rest)
  else
    let text := (if negative then ['-'] else []) ++ whole ++
      (fraction.map (fun f => '.' :: f.1)).getD [] ++ (exponent.map (fun e => 'e' :: e.1)).getD []
    match Double.parseChars? text with
    | some d => .ok (.float d, rest)
    | none => .error .malformedNumber

def scanNumber (negative : Bool) (cs : List Char) : Scan Token :=
  let inBase (base : Nat) (rest : List Char) : Scan Token :=
    let isPart (c : Char) : Bool :=
      c == '_' || (if base == 16 then (baseDigit? 16 c).isSome else c.isDigit)
    match natInBase? base ((rest.takeWhile isPart).filter (· != '_')) with
    | some n =>
      if n < Nat.pow 2 64 then
        .ok (.int (if negative then -signed64 n else signed64 n), rest.dropWhile isPart)
      else .error .malformedNumber
    | none => .error .malformedNumber
  match cs with
  | '0' :: 'x' :: rest | '0' :: 'X' :: rest => inBase 16 rest
  | '0' :: 'o' :: rest | '0' :: 'O' :: rest => inBase 8 rest
  | '0' :: 'b' :: rest | '0' :: 'B' :: rest => inBase 2 rest
  | _ => scanDecimal negative cs

/-- The character named by hexadecimal digits. -/
def namedChar (cs : List Char) : Except Malformation Char :=
  match natInBase? 16 cs with
  | some n =>
    if n.isValidChar then .ok (Char.ofNat n) else .error .malformedEscape
  | none => .error .malformedEscape

/-- A text between marks, after the opening mark; `acc` holds its characters in reverse. -/
def scanQuoted (mark : Char) (acc : List Char) : Nat → List Char → Scan (List Char)
  | 0, _ => .error .unterminatedText
  | fuel + 1, cs =>
    let hex (count : Nat) (rest : List Char) : Scan (List Char) :=
      if rest.length < count then .error .malformedEscape
      else match namedChar (rest.take count) with
        | .ok c => scanQuoted mark (c :: acc) fuel (rest.drop count)
        | .error e => .error e
    match cs with
    | [] => .error .unterminatedText
    | '\\' :: 'x' :: rest => hex 2 rest
    | '\\' :: 'u' :: rest => hex 4 rest
    | '\\' :: 'U' :: rest => hex 8 rest
    | '\\' :: 't' :: rest => scanQuoted mark ('\t' :: acc) fuel rest
    | '\\' :: 'r' :: rest => scanQuoted mark ('\r' :: acc) fuel rest
    | '\\' :: 'n' :: rest => scanQuoted mark ('\n' :: acc) fuel rest
    | '\\' :: '\\' :: rest => scanQuoted mark ('\\' :: acc) fuel rest
    | '\\' :: '\n' :: rest =>
      if mark == '"' then scanQuoted mark acc fuel (rest.dropWhile isSpace)
      else .error .malformedEscape
    | '\\' :: c :: rest =>
      if c == mark then scanQuoted mark (c :: acc) fuel rest else .error .malformedEscape
    | ['\\'] => .error .unterminatedText
    | c :: rest =>
      if c == mark then
        match rest with
        | d :: rest' =>
          if d == mark then scanQuoted mark (mark :: acc) fuel rest' else .ok (acc.reverse, rest)
        | [] => .ok (acc.reverse, rest)
      else if c == '\n' then .error .unterminatedText
      else scanQuoted mark (c :: acc) fuel rest

/-- A back-quoted text up to its end or to an embedded block; the flag tells which. -/
def scanVerbatim (acc : List Char) : List Char → Except Malformation (String × Bool × List Char)
  | [] => .error .unterminatedText
  | '\x60' :: '\x60' :: rest => scanVerbatim ('\x60' :: acc) rest
  | '\x60' :: rest => .ok (String.ofList acc.reverse, false, rest)
  | '$' :: '\x7b' :: rest => .ok (String.ofList acc.reverse, true, '\x7b' :: rest)
  | c :: rest => scanVerbatim (c :: acc) rest

/-- What follows a comment to the end of its line. -/
def dropLine (cs : List Char) : List Char := cs.dropWhile (· != '\n')

/-- What follows a block comment; comments nest. -/
def dropBlock : Nat → List Char → List Char
  | _, [] => []
  | depth, '*' :: '/' :: rest => if depth ≤ 1 then rest else dropBlock (depth - 1) rest
  | depth, '/' :: '*' :: rest => dropBlock (depth + 1) rest
  | depth, _ :: rest => dropBlock depth rest

/-- The first listed symbol that the text begins with. -/
def startingSymbol? (cs : List Char) (table : List String) : Option (String × List Char) :=
  table.findSome? fun s =>
    let l := s.toList
    if l.isPrefixOf cs then some (s, cs.drop l.length) else none

def scanSymbol (cs : List Char) : Scan Token :=
  match cs with
  | '!' :: 'i' :: 'n' :: rest =>
    if (rest.head?.map isNamePart).getD false then .ok (.symbol "!", 'i' :: 'n' :: rest)
    else .ok (.symbol "!in", rest)
  | _ =>
    match startingSymbol? cs Token.unusedSymbols, startingSymbol? cs Token.symbols with
    | some (u, rest), some (s, rest') =>
      if s.length < u.length then .ok (.reserved u, rest) else .ok (.symbol s, rest')
    | some (u, rest), none => .ok (.reserved u, rest)
    | none, some (s, rest) => .ok (.symbol s, rest)
    | none, none => .error (.unexpectedCharacter (cs.headD ' '))

/-- The tokens of a text, in reverse. `last` is the token before; `blocks` counts, for each
back-quoted text that is open, the braces open inside its embedded block. -/
def scan (last : Option Token) (blocks : List Nat) (acc : List Token) :
    Nat → List Char → Except Malformation (List Token)
  | 0, _ => .ok acc
  | fuel + 1, cs =>
    let push (t : Token) (blocks : List Nat) (rest : List Char) :=
      scan (some t) blocks (t :: acc) fuel rest
    let verbatim (blocks : List Nat) (embedded : Bool) (rest : List Char) := do
      let (text, more, rest) ← scanVerbatim [] rest
      if more then push (.piece text) (0 :: blocks) rest
      else push (if embedded then .lastPiece text else .str text) blocks rest
    match cs with
    | [] => .ok acc
    | '/' :: '/' :: rest => scan last blocks acc fuel (dropLine rest)
    | '/' :: '*' :: rest => scan last blocks acc fuel (dropBlock 1 rest)
    | '"' :: rest => do
      let (text, rest) ← scanQuoted '"' [] (rest.length + 1) rest
      push (.str (String.ofList text)) blocks rest
    | '\x27' :: rest => do
      let (text, rest) ← scanQuoted '\x27' [] (rest.length + 1) rest
      match text with
      | [c] => push (.char c) blocks rest
      | _ => .error .malformedCharacter
    | '\x60' :: '\r' :: '\n' :: rest => verbatim blocks false rest
    | '\x60' :: '\n' :: rest => verbatim blocks false rest
    | '\x60' :: rest => verbatim blocks false rest
    | '\x7b' :: rest =>
      push (.symbol "\x7b") (match blocks with | [] => [] | n :: ns => (n + 1) :: ns) rest
    | '#' :: '\x7b' :: rest =>
      push (.symbol "#\x7b") (match blocks with | [] => [] | n :: ns => (n + 1) :: ns) rest
    | '\x7d' :: rest =>
      match blocks with
      | 1 :: outer =>
        match scanVerbatim [] rest with
        | .error e => .error e
        | .ok (text, more, rest) =>
          let close := Token.symbol "\x7d"
          let t : Token := if more then .piece text else .lastPiece text
          scan (some t) (if more then 0 :: outer else outer) (t :: close :: acc) fuel rest
      | n :: outer => push (.symbol "\x7d") ((n - 1) :: outer) rest
      | [] => push (.symbol "\x7d") [] rest
    | c :: rest =>
      if isSpace c then scan last blocks acc fuel rest
      else if c.isDigit then do
        let (t, rest) ← scanNumber false cs
        push t blocks rest
      else if c == '-' && (rest.head?.map Char.isDigit).getD false &&
          (last.map Token.allowsSign).getD true then do
        let (t, rest) ← scanNumber true rest
        push t blocks rest
      else if isNameStart c then do
        let t ← wordToken (cs.takeWhile isNamePart)
        push t blocks (cs.dropWhile isNamePart)
      else do
        let (t, rest) ← scanSymbol cs
        push t blocks rest

end Lexer

def Token.ofText (text : String) : Except Malformation (List Token) :=
  let cs := text.toList
  (Lexer.scan none [] [] (cs.length + 1) cs).map List.reverse

end RuleService.Snippet
