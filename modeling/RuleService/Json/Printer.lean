import RuleService.Json.Basic
import RuleService.Double.Format

namespace RuleService.Json

/-- A hexadecimal digit in lower case. -/
def hexDigit (n : Nat) : Char := (Nat.digitChar n)

/-- A character inside quotes: quote, backslash and control characters are escaped. -/
def escaped (c : Char) : List Char :=
  match c with
  | '"' => ['\\', '"']
  | '\\' => ['\\', '\\']
  | '\n' => ['\\', 'n']
  | '\t' => ['\\', 't']
  | '\r' => ['\\', 'r']
  | '\x08' => ['\\', 'b']
  | '\x0c' => ['\\', 'f']
  | c =>
    if c.toNat < 0x20 then
      ['\\', 'u', '0', '0', hexDigit (c.toNat / 16), hexDigit (c.toNat % 16)]
    else [c]

/-- Appends a quoted string. -/
def writeString (acc : String) (s : String) : String :=
  (s.foldl (fun acc c => (escaped c).foldl String.push acc) (acc.push '"')).push '"'

mutual

/-- Appends the compact text of a value. -/
def write (acc : String) : Json → String
  | .null => acc ++ "null"
  | .bool true => acc ++ "true"
  | .bool false => acc ++ "false"
  | .int n => acc ++ toString n
  | .float d => acc ++ Double.documentLayout.render d
  | .str s => writeString acc s
  | .arr items => (writeItems (acc.push '[') true items).push ']'
  | .obj fields => (writeFields (acc.push '\x7b') true fields).push '\x7d'

def writeItems (acc : String) (first : Bool) : List Json → String
  | [] => acc
  | item :: rest => writeItems (write (if first then acc else acc.push ',') item) false rest

def writeFields (acc : String) (first : Bool) : List (String × Json) → String
  | [] => acc
  | (key, v) :: rest =>
    let acc := writeString (if first then acc else acc.push ',') key
    writeFields (write (acc.push ':') v) false rest

end

/-- The compact text of a value: no spaces, keys in their own order. -/
def render (v : Json) : String := write "" v

/-- The text a value has inside a longer text: strings bare, whole numbers without a point. -/
def display : Json → String
  | .str s => s
  | .float d => d.display
  | v => v.render

/-- Null, false, zero, NaN and the empty string count as false. -/
def isTruthy : Json → Bool
  | .null => false
  | .bool b => b
  | .int n => n != 0
  | .float d => !d.isZero && !d.isNaN
  | .str s => !s.isEmpty
  | .arr _ => true
  | .obj _ => true

end RuleService.Json
