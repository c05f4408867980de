import RuleService.Json.Reader
import RuleService.Text.Split

namespace RuleService.Http

inductive Ip where
  | v4 (a b c d : Nat)
  | v6 (groups : List Nat)
  deriving DecidableEq, Repr

namespace Ip

/-- A decimal number below 256 without leading zeros. -/
def octet? (s : String) : Option Nat :=
  let cs := s.toList
  if cs.isEmpty || 3 < cs.length || (1 < cs.length && cs.head? == some '0') then none
  else if cs.all Double.isDigit then
    let n := Double.natOfDigits cs
    if n < 256 then some n else none
  else none

def ofV4? (s : String) : Option Ip :=
  match (Text.split "." s).mapM octet? with
  | some [a, b, c, d] => some (v4 a b c d)
  | _ => none

/-- A group of one to four hexadecimal digits. -/
def group? (s : String) : Option Nat :=
  let cs := s.toList
  if cs.isEmpty || 4 < cs.length then none
  else (cs.mapM Json.hexValue?).map fun ds => ds.foldl (fun n d => n * 16 + d) 0

/-- Groups between colons; the last may be four decimal numbers, which make two groups. -/
def groups? : List String → Option (List Nat)
  | [] => some []
  | [s] =>
    match ofV4? s with
    | some (v4 a b c d) => some [a * 256 + b, c * 256 + d]
    | _ => (group? s).map fun g => [g]
  | s :: rest => do
    let g ← group? s
    let gs ← groups? rest
    pure (g :: gs)

/-- The groups in a text, empty for no text. -/
def groupsIn? (s : String) : Option (List Nat) := if s.isEmpty then some [] else groups? (Text.split ":" s)

def ofV6? (s : String) : Option Ip :=
  match Text.split "::" s with
  | [whole] => (groups? (Text.split ":" whole)).bind fun gs =>
      if gs.length = 8 then some (v6 gs) else none
  | [before, after] => do
    let b ← groupsIn? before
    let a ← groupsIn? after
    if b.length + a.length < 8 then some (v6 (b ++ List.replicate (8 - b.length - a.length) 0 ++ a))
    else none
  | _ => none

/-- The length of the run of zeros at the front. -/
def zeros (gs : List Nat) : Nat := (gs.takeWhile (· == 0)).length

/-- The longest run of zeros, the first of equals: where it begins and how long it is. -/
def longestZeros (gs : List Nat) : Nat × Nat :=
  go 0 (0, 0) gs
where
  go (i : Nat) (best : Nat × Nat) : List Nat → Nat × Nat
    | [] => best
    | g :: rest =>
      let n := zeros (g :: rest)
      go (i + 1) (if best.2 < n then (i, n) else best) rest

def hexText (gs : List Nat) : String :=
  ":".intercalate (gs.map fun g => String.ofList (Nat.toDigits 16 g))

def decimalText (a b c d : Nat) : String := ".".intercalate ([a, b, c, d].map toString)

/-- The shortest form of an address. Two or more zeros in a row are left out once, and one that stands for
four numbers ends in them. -/
def text : Ip → String
  | v4 a b c d => decimalText a b c d
  | v6 gs =>
    match gs with
    | [0, 0, 0, 0, 0, 0xFFFF, x, y] =>
      "::ffff:" ++ decimalText (x / 256) (x % 256) (y / 256) (y % 256)
    | gs =>
      let (i, n) := longestZeros gs
      if 1 < n then hexText (gs.take i) ++ "::" ++ hexText (gs.drop (i + n)) else hexText gs

end Ip

/-- A port number. -/
def port? (s : String) : Option Nat :=
  let cs := s.toList
  if cs.isEmpty || !cs.all Double.isDigit then none
  else
    let n := Double.natOfDigits cs
    if n < 65536 then some n else none

/-- The address in a pair of address and port; one of groups stands in brackets, where a zone may
follow. -/
def peerAddress? (s : String) : Option Ip :=
  match s.toList with
  | '[' :: rest =>
    let inner := rest.takeWhile (· != ']')
    match rest.dropWhile (· != ']') with
    | ']' :: ':' :: port =>
      (port? (String.ofList port)).bind fun _ =>
        Ip.ofV6? (String.ofList (inner.takeWhile (· != '%')))
    | _ => none
  | cs =>
    match cs.dropWhile (· != ':') with
    | ':' :: port =>
      (port? (String.ofList port)).bind fun _ => Ip.ofV4? (String.ofList (cs.takeWhile (· != ':')))
    | _ => none

end RuleService.Http
