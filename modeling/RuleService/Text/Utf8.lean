namespace RuleService.Text

/-- The bytes still due of a character: its bits so far, and the range that each byte has to be in. -/
structure Due where
  bits : Nat
  next : UInt8 × UInt8
  later : List (UInt8 × UInt8)

/-- What the first byte of a character says. -/
inductive Lead where
  | whole (c : Char)
  | opened (due : Due)
  | invalid

/-- The bytes that continue a character. -/
def continuing : UInt8 × UInt8 := (0x80, 0xBF)

/-- Reads a first byte. The ranges shut out overlong forms, surrogates and what lies beyond U+10FFFF. -/
def lead (b : UInt8) : Lead :=
  if b < 0x80 then .whole (Char.ofNat b.toNat)
  else if b < 0xC2 then .invalid
  else if b < 0xE0 then .opened ⟨b.toNat - 0xC0, continuing, []⟩
  else if b == 0xE0 then .opened ⟨0, (0xA0, 0xBF), [continuing]⟩
  else if b == 0xED then .opened ⟨0xD, (0x80, 0x9F), [continuing]⟩
  else if b < 0xF0 then .opened ⟨b.toNat - 0xE0, continuing, [continuing]⟩
  else if b == 0xF0 then .opened ⟨0, (0x90, 0xBF), [continuing, continuing]⟩
  else if b < 0xF4 then .opened ⟨b.toNat - 0xF0, continuing, [continuing, continuing]⟩
  else if b == 0xF4 then .opened ⟨4, (0x80, 0x8F), [continuing, continuing]⟩
  else .invalid

/-- Stands for bytes that are no character. -/
def replacement : Char := '\uFFFD'

/-- Reads a byte where a character begins. -/
def begin (acc : String) (b : UInt8) : String × Option Due :=
  match lead b with
  | .whole c => (acc.push c, none)
  | .opened due => (acc, some due)
  | .invalid => (acc.push replacement, none)

/-- Appends the characters of some bytes. A character cut short is replaced once. -/
def decodeLossy : String → Option Due → List UInt8 → String
  | acc, none, [] => acc
  | acc, some _, [] => acc.push replacement
  | acc, none, b :: rest =>
    let (acc, due) := begin acc b
    decodeLossy acc due rest
  | acc, some due, b :: rest =>
    if due.next.1 ≤ b && b ≤ due.next.2 then
      let bits := due.bits * 64 + (b.toNat - 0x80)
      match due.later with
      | [] => decodeLossy (acc.push (Char.ofNat bits)) none rest
      | next :: later => decodeLossy acc (some ⟨bits, next, later⟩) rest
    else
      let (acc, due) := begin (acc.push replacement) b
      decodeLossy acc due rest

def ofBytes (bytes : ByteArray) : String :=
  match String.fromUTF8? bytes with
  | some s => s
  | none => decodeLossy "" none bytes.toList

end RuleService.Text
