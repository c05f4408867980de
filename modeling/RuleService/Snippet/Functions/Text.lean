import RuleService.Snippet.Functions.Reply
import RuleService.Text.Blank
import RuleService.Text.Case

namespace RuleService.Snippet

namespace Functions

def ofChars (cs : List Char) : Value := .str (String.ofList cs)

/-- The position of the first occurrence of a piece at or after `start`. -/
def findFrom (piece : List Char) (position : Nat) : List Char → Option Nat
  | [] => if piece.isEmpty then some position else none
  | c :: cs =>
    if piece.isPrefixOf (c :: cs) then some position else findFrom piece (position + 1) cs

def indexOf (s : List Char) (piece : List Char) (start : Int) : Value :=
  let from_ :=
    if start < 0 then s.length - min s.length start.natAbs else min s.length start.toNat
  match findFrom piece from_ (s.drop from_) with
  | some n => .int n
  | none => .int (-1)

/-- The part of a text that a start and a length select. -/
def subString (cs : List Char) (start len : Int) : List Char :=
  let (from_, count) := partOf cs.length start len
  (cs.drop from_).take count

/-- The pieces between the occurrences of a delimiter. An empty one stands between all characters
and at both ends. -/
def splitBy (s delimiter : String) : List String :=
  if delimiter.isEmpty then "" :: s.toList.map String.singleton ++ [""]
  else s.splitOn delimiter

/-- At most `count` pieces; the last one has the rest. -/
def splitSome (s delimiter : String) (count : Int) : List String :=
  let pieces := splitBy s delimiter
  if count < 1 then [s]
  else
    let n := count.toNat - 1
    if pieces.length ≤ n + 1 then pieces
    else pieces.take n ++ [delimiter.intercalate (pieces.drop n)]

/-- A text with every occurrence of a piece replaced. -/
def replaceAll (s piece other : String) : String :=
  other.intercalate (splitBy s piece)

def texts (xs : List String) : Value := .array (xs.map .str)

/-- Fills a text up to a length, repeating a piece. -/
def padTo (s : List Char) (len : Int) (piece : List Char) : List Char :=
  let n := len.toNat
  if piece.isEmpty || n ≤ s.length then s
  else
    let copies := (n - s.length + piece.length - 1) / piece.length
    let all := s ++ (List.replicate copies piece).flatten
    all.take n

/-- Functions whose first argument is a text or a character. -/
def texts? (name : String) (args : List Value) : Answer :=
  match name, args with
  | "len", [.str s] => Reply.give (.int s.length)
  | "is_empty", [.str s] => Reply.give (.bool s.isEmpty)
  | "bytes", [.str s] => Reply.give (.int s.utf8ByteSize)
  | "to_upper", [.str s] => Reply.give (.str (Text.upper s))
  | "to_lower", [.str s] => Reply.give (.str (Text.lower s))
  | "make_upper", [.str s] => Reply.become (.str (Text.upper s))
  | "make_lower", [.str s] => Reply.become (.str (Text.lower s))
  | "to_upper", [.char c] =>
    Reply.give (match Text.upperChar c with | [u] => .char u | _ => .char c)
  | "to_lower", [.char c] =>
    Reply.give (match Text.lowerChar c with | [l] => .char l | _ => .char c)
  | "to_int", [.char c] => Reply.give (.int c.toNat)
  | "contains", [.str s, .str t] =>
    Reply.give (.bool (findFrom t.toList 0 s.toList).isSome)
  | "contains", [.str s, .char c] => Reply.give (.bool (s.toList.contains c))
  | "starts_with", [.str s, .str t] => Reply.give (.bool (t.toList.isPrefixOf s.toList))
  | "ends_with", [.str s, .str t] => Reply.give (.bool (t.toList.isSuffixOf s.toList))
  | "index_of", [.str s, .str t] => Reply.give (indexOf s.toList t.toList 0)
  | "index_of", [.str s, .char c] => Reply.give (indexOf s.toList [c] 0)
  | "index_of", [.str s, .str t, .int n] => Reply.give (indexOf s.toList t.toList n)
  | "index_of", [.str s, .char c, .int n] => Reply.give (indexOf s.toList [c] n)
  | "sub_string", [.str s, .int start] =>
    Reply.give (ofChars (subString s.toList start s.length))
  | "sub_string", [.str s, .int start, .int len] =>
    Reply.give (ofChars (subString s.toList start len))
  | "sub_string", [.str s, .range low high inclusive] =>
    let (from_, count) := rangePart s.length low high inclusive
    Reply.give (ofChars ((s.toList.drop from_).take count))
  | "crop", [.str s, .int start] => Reply.become (ofChars (subString s.toList start s.length))
  | "crop", [.str s, .int start, .int len] =>
    Reply.become (ofChars (subString s.toList start len))
  | "truncate", [.str s, .int n] => Reply.become (ofChars (s.toList.take n.toNat))
  | "trim", [.str s] => Reply.become (.str (Text.trim s))
  | "clear", [.str _] => Reply.become (.str "")
  | "pop", [.str s] =>
    match s.toList.reverse with
    | [] => Reply.give .unit
    | c :: rest => Reply.giveAndBecome (.char c) (ofChars rest.reverse)
  | "pop", [.str s, .int n] =>
    let cs := s.toList
    let kept := cs.length - min cs.length n.toNat
    Reply.giveAndBecome (ofChars (cs.drop kept)) (ofChars (cs.take kept))
  | "get", [.str s, .int n] =>
    Reply.give (((placeOf s.length n).bind fun i => s.toList[i]?).elim .unit .char)
  | "set", [.str s, .int n, .char c] =>
    match placeOf s.length n with
    | some i => Reply.become (ofChars (s.toList.set i c))
    | none => Reply.give .unit
  | "append", [.str s, v] => Reply.become (.str (s ++ v.text))
  | "remove", [.str s, .str t] => Reply.become (.str (Operators.without s t))
  | "remove", [.str s, .char c] =>
    Reply.become (.str (Operators.without s (String.singleton c)))
  | "replace", [.str s, .str a, .str b] => Reply.become (.str (replaceAll s a b))
  | "replace", [.str s, .char a, .str b] =>
    Reply.become (.str (replaceAll s (String.singleton a) b))
  | "replace", [.str s, .str a, .char b] =>
    Reply.become (.str (replaceAll s a (String.singleton b)))
  | "replace", [.str s, .char a, .char b] =>
    Reply.become (.str (replaceAll s (String.singleton a) (String.singleton b)))
  | "pad", [.str s, .int n, .char c] => Reply.become (ofChars (padTo s.toList n [c]))
  | "pad", [.str s, .int n, .str t] => Reply.become (ofChars (padTo s.toList n t.toList))
  | "split", [.str s] => Reply.give (texts ((Text.words s.toList).map String.ofList))
  | "split", [.str s, .str d] => Reply.give (texts (splitBy s d))
  | "split", [.str s, .char d] => Reply.give (texts (splitBy s (String.singleton d)))
  | "split", [.str s, .str d, .int n] => Reply.give (texts (splitSome s d n))
  | "split", [.str s, .char d, .int n] =>
    Reply.give (texts (splitSome s (String.singleton d) n))
  | "split", [.str s, .int n] =>
    let cs := s.toList
    let i := if n < 0 then cs.length - min cs.length n.natAbs else min cs.length n.toNat
    Reply.give (.array [ofChars (cs.take i), ofChars (cs.drop i)])
  | "chars", [.str s] => Reply.give (.array (s.toList.map .char))
  | "to_array", [.str s] => Reply.give (.array (s.toList.map .char))
  | "to_chars", [.str s] => Reply.give (.array (s.toList.map .char))
  | "min", [.str a, .str b] => Reply.give (.str (if b < a then b else a))
  | "max", [.str a, .str b] => Reply.give (.str (if a < b then b else a))
  | "min", [.char a, .char b] => Reply.give (.char (if b < a then b else a))
  | "max", [.char a, .char b] => Reply.give (.char (if a < b then b else a))
  | _, _ => none

end Functions

end RuleService.Snippet
