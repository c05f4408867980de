namespace RuleService.Json

inductive Cause where
  | endInValue
  | endInString
  | endInList
  | endInObject
  | expectedColon
  | expectedListCommaOrEnd
  | expectedObjectCommaOrEnd
  | expectedWord
  | expectedValue
  | invalidEscape
  | invalidNumber
  | numberOutOfRange
  | keyNotAString
  | controlCharacter
  | loneSurrogate
  | unfinishedSurrogatePair
  | trailingComma
  | trailingCharacters
  | tooDeep
  deriving DecidableEq, Repr, Inhabited

def Cause.message : Cause → String
  | endInValue => "EOF while parsing a value"
  | endInString => "EOF while parsing a string"
  | endInList => "EOF while parsing a list"
  | endInObject => "EOF while parsing an object"
  | expectedColon => "expected `:`"
  | expectedListCommaOrEnd => "expected `,` or `]`"
  | expectedObjectCommaOrEnd => "expected `,` or `\x7d`"
  | expectedWord => "expected ident"
  | expectedValue => "expected value"
  | invalidEscape => "invalid escape"
  | invalidNumber => "invalid number"
  | numberOutOfRange => "number out of range"
  | keyNotAString => "key must be a string"
  | controlCharacter => "control character (\\u0000-\\u001F) found while parsing a string"
  | loneSurrogate => "lone leading surrogate in hex escape"
  | unfinishedSurrogatePair => "unexpected end of hex escape"
  | trailingComma => "trailing comma"
  | trailingCharacters => "trailing characters"
  | tooDeep => "recursion limit exceeded"

/-- A cause, and the number of bytes of the text read when it was found. -/
structure Fault where
  cause : Cause
  offset : Nat
  deriving DecidableEq, Repr, Inhabited

/-- The line, from 1, and the column, in bytes since the line began, of the first `offset` bytes. -/
def position (text : List Char) (offset : Nat) : Nat × Nat :=
  go text 0 1 0
where
  go : List Char → Nat → Nat → Nat → Nat × Nat
    | [], at_, line, start => (line, min offset at_ - start)
    | c :: rest, at_, line, start =>
      if offset ≤ at_ then (line, offset - start)
      else
        let next := at_ + c.utf8Size
        if c == '\n' then go rest next (line + 1) next else go rest next line start

/-- The cause and its place in the text. -/
def Fault.message (f : Fault) (text : String) : String :=
  let (line, column) := position text.toList f.offset
  f.cause.message ++ " at line " ++ toString line ++ " column " ++ toString column

end RuleService.Json
