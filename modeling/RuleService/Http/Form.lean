import RuleService.Json.Reader
import RuleService.Request
import RuleService.Text.Utf8

namespace RuleService.Http.Form

/-- Cuts bytes at every byte of one kind, leaving out empty parts. -/
def parts (mark : UInt8) (bytes : List UInt8) : List (List UInt8) :=
  (go [] [] bytes).reverse.filter (!·.isEmpty)
where
  go (part : List UInt8) (done : List (List UInt8)) : List UInt8 → List (List UInt8)
    | [] => part.reverse :: done
    | b :: rest => if b == mark then go [] (part.reverse :: done) rest else go (b :: part) done rest

def hexOf? (b : UInt8) : Option UInt8 := (Json.hexValue? (Char.ofNat b.toNat)).map Nat.toUInt8

/-- The bytes that percent signs and plus signs stand for. A percent sign without two hexadecimal digits
stands for itself. The bytes before are given in reverse. -/
def unescape (acc : List UInt8) : List UInt8 → List UInt8
  | 0x25 :: a :: b :: rest =>
    match hexOf? a, hexOf? b with
    | some x, some y => unescape ((x * 16 + y) :: acc) rest
    | _, _ => unescape (0x25 :: acc) (a :: b :: rest)
  | 0x2B :: rest => unescape (0x20 :: acc) rest
  | b :: rest => unescape (b :: acc) rest
  | [] => acc.reverse

/-- The text that escaped bytes stand for. -/
def decode (bytes : List UInt8) : String := Text.decodeLossy "" none (unescape [] bytes)

/-- The fields in some bytes, in order: `name=value` between ampersands. A part without an equals sign has an
empty value. -/
def fields (bytes : List UInt8) : List (String × String) :=
  (parts 0x26 bytes).map fun part =>
    (decode (part.takeWhile (· != 0x3D)), decode ((part.dropWhile (· != 0x3D)).drop 1))

/-- The fields in some bytes by name; the last one of a name counts. -/
def texts (bytes : List UInt8) : Texts := Named.ofList (fields bytes)

end RuleService.Http.Form
