import RuleService.Json.Printer
import RuleService.Evaluation

namespace RuleService

/-- A part of a text. Code stands in a placeholder: behind `$` and an opening brace, up to the first closing
brace of the same line. -/
inductive Piece where
  | plain (text : String)
  | code (text : String)
  deriving DecidableEq, Repr, Inhabited

namespace Piece

/-- The piece of some characters, the latest first; none if there are none. -/
def plainOf (reversed : List Char) : List Piece :=
  if reversed.isEmpty then [] else [.plain (String.ofList reversed.reverse)]

mutual

/-- The pieces of a text outside placeholders, after plain characters that are the latest first. -/
def outside (plain : List Char) : List Char → List Piece
  | [] => plainOf plain
  | '$' :: '\x7b' :: rest => inside plain [] rest
  | c :: rest => outside (c :: plain) rest

/-- The pieces after an opened placeholder. If its line ends before it is closed, it was plain. -/
def inside (plain code : List Char) : List Char → List Piece
  | [] => plainOf (code ++ '\x7b' :: '$' :: plain)
  | '\x7d' :: rest => plainOf plain ++ .code (String.ofList code.reverse) :: outside [] rest
  | '\n' :: rest => outside ('\n' :: code ++ '\x7b' :: '$' :: plain) rest
  | c :: rest => inside plain (c :: code) rest

end

/-- The pieces of a text, from left to right. -/
def ofText (text : String) : List Piece := outside [] text.toList

/-- The text of a piece, as it stood. -/
def source : Piece → String
  | plain text => text
  | code text => "$\x7b" ++ text ++ "\x7d"

def isCode : Piece → Bool
  | code _ => true
  | plain _ => false

end Piece

def hasPlaceholder (text : String) : Bool := (Piece.ofText text).any Piece.isCode

/-- The text of pieces with each code replaced by the display text of its value. -/
def splice (engine : Engine) (ctx : Context) : String → List Piece → Effect String
  | acc, [] => pure acc
  | acc, .plain text :: rest => splice engine ctx (acc ++ text) rest
  | acc, .code text :: rest => do
    let v ← evaluate engine ctx text
    splice engine ctx (acc ++ v.display) rest

/-- The value of a text in pieces: of one placeholder alone the value itself, otherwise a text. -/
def expandPieces (engine : Engine) (ctx : Context) : List Piece → Effect Json
  | [.code text] => evaluate engine ctx text
  | pieces => Json.str <$> splice engine ctx "" pieces

/-- The value of a text. -/
def expand (engine : Engine) (ctx : Context) (text : String) : Effect Json :=
  expandPieces engine ctx (Piece.ofText text)

end RuleService
