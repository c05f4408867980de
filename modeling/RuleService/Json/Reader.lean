import RuleService.Json.Basic
import RuleService.Json.Fault
import RuleService.Double.Numeral

namespace RuleService.Json

/-- A value as it stands in a text, as far as it goes, with the fault that ends it at the place where it was
found. Its parts are met in the order of the text, so the first fault wins, be it one of form or one of
type. Objects keep every field, also repeated ones. -/
inductive Draft where
  | null
  | bool (b : Bool)
  | int (n : Int)
  | float (d : Double)
  | str (s : String)
  /-- The items, and the fault found where another item or the end was due. -/
  | arr (items : List Draft) (fault : Option Fault)
  /-- The fields, and the fault found where another field or the end was due. -/
  | obj (fields : List (String × Draft)) (fault : Option Fault)
  /-- Well formed, but the number or the characters it names do not exist. -/
  | refused (fault : Fault)
  /-- The text stops being JSON inside this value. -/
  | broken (fault : Fault)
  deriving Repr, Inhabited

/-- Nesting at which reading stops. -/
def depthLimit : Nat := 128

/-- The rest of a text, and the bytes before it. -/
structure Cursor where
  rest : List Char
  offset : Nat
  deriving Repr, Inhabited

namespace Cursor

/-- A fault found after what has been read. -/
def here (c : Cursor) (cause : Cause) : Fault := ⟨cause, c.offset⟩

/-- A fault found at the next byte, or at the end. -/
def ahead (c : Cursor) (cause : Cause) : Fault :=
  ⟨cause, if c.rest.isEmpty then c.offset else c.offset + 1⟩

def advance (c : Cursor) : Cursor :=
  match c.rest with
  | [] => c
  | x :: rest => ⟨rest, c.offset + x.utf8Size⟩

def skipBlanks (c : Cursor) : Cursor :=
  go c.rest c.offset
where
  go : List Char → Nat → Cursor
    | [], n => ⟨[], n⟩
    | x :: rest, n =>
      if x == ' ' || x == '\n' || x == '\t' || x == '\r' then go rest (n + 1) else ⟨x :: rest, n⟩

/-- The digits that come next. -/
def takeDigits (c : Cursor) : List Char × Cursor :=
  let ds := c.rest.takeWhile Double.isDigit
  (ds, ⟨c.rest.drop ds.length, c.offset + ds.length⟩)

def bytesLeft (c : Cursor) : Nat := c.rest.foldl (fun n x => n + x.utf8Size) 0

end Cursor

/-- The result of reading one value: the draft, and what follows unless the text is broken. -/
abbrev Reading := Draft × Option Cursor

def stop (f : Fault) : Reading := (.broken f, none)

/-- The letters of a word that is a value. -/
def readWord (c : Cursor) (letters : List Char) (v : Draft) : Reading :=
  match letters with
  | [] => (v, some c)
  | l :: ls =>
    match c.rest with
    | [] => stop (c.here .endInValue)
    | x :: _ => if x == l then readWord c.advance ls v else stop (c.advance.here .expectedWord)

/-- Gathers digits while the number fits 64 bits; the count is that of the digits kept. -/
def gatherDigits (significand : Nat) (ds : List Char) : Nat × Nat :=
  go significand 0 ds
where
  go (n kept : Nat) : List Char → Nat × Nat
    | [] => (n, kept)
    | d :: ds =>
      let next := n * 10 + (d.toNat - '0'.toNat)
      if next < Nat.pow 2 64 then go next (kept + 1) ds else (n, kept)

/-- A decimal by its quick reading; one beyond the finite numbers is refused. -/
def readScaled (negative : Bool) (significand : Nat) (e : Int) (c : Cursor) : Reading :=
  match Double.quick? negative significand e with
  | some d => (.float d, some c)
  | none => (.refused (c.here .numberOutOfRange), some c)

/-- Exponents from here on are not computed. -/
def exponentLimit : Nat := Nat.pow 2 31

/-- The exponent, from its `e` on. -/
def readExponent (negative : Bool) (significand : Nat) (e : Int) (c : Cursor) : Reading :=
  let c := c.advance
  let (minus, c) := match c.rest with
    | '+' :: _ => (false, c.advance)
    | '-' :: _ => (true, c.advance)
    | _ => (false, c)
  match c.rest with
  | [] => stop (c.here .endInValue)
  | x :: _ =>
    if !Double.isDigit x then stop (c.advance.here .invalidNumber)
    else
      let (ds, after) := c.takeDigits
      let n := Double.natOfDigits ds
      if n < exponentLimit then
        readScaled negative significand (if minus then e - n else e + n) after
      else if significand != 0 && !minus then
        (.refused (after.here .numberOutOfRange), some after)
      else (.float (Double.zero negative), some after)

/-- The digits after the point, from the point on. Digits beyond 64 bits are dropped. -/
def readFraction (negative : Bool) (significand : Nat) (e : Int) (c : Cursor) : Reading :=
  let c := c.advance
  let (ds, after) := c.takeDigits
  if ds.isEmpty then
    stop (c.ahead (if c.rest.isEmpty then .endInValue else .invalidNumber))
  else
    let (significand, kept) := gatherDigits significand ds
    let e := e - kept
    match after.rest with
    | 'e' :: _ | 'E' :: _ => readExponent negative significand e after
    | _ => readScaled negative significand e after

/-- What follows the whole digits of a number. -/
def readAfterDigits (negative : Bool) (significand dropped : Nat) (c : Cursor) : Reading :=
  match c.rest with
  | '.' :: _ => readFraction negative significand dropped c
  | 'e' :: _ | 'E' :: _ => readExponent negative significand dropped c
  | _ =>
    if dropped != 0 then readScaled negative significand dropped c
    else if !negative then (.int significand, some c)
    else if significand == 0 || Nat.pow 2 63 < significand then
      (.float (Double.ofInt significand).neg, some c)
    else (.int (-significand), some c)

/-- A number after its sign. -/
def readNumber (negative : Bool) (c : Cursor) : Reading :=
  match c.rest with
  | [] => stop (c.here .endInValue)
  | x :: _ =>
    if x == '0' then
      let c := c.advance
      match c.rest with
      | y :: _ =>
        if Double.isDigit y then stop (c.ahead .invalidNumber)
        else readAfterDigits negative 0 0 c
      | [] => readAfterDigits negative 0 0 c
    else if Double.isDigit x then
      let (ds, after) := c.takeDigits
      let (significand, kept) := gatherDigits 0 ds
      readAfterDigits negative significand (ds.length - kept) after
    else stop (c.advance.here .invalidNumber)

/-- The value of a hexadecimal digit. -/
def hexValue? (c : Char) : Option Nat :=
  if '0' ≤ c ∧ c ≤ '9' then some (c.toNat - '0'.toNat)
  else if 'a' ≤ c ∧ c ≤ 'f' then some (c.toNat - 'a'.toNat + 10)
  else if 'A' ≤ c ∧ c ≤ 'F' then some (c.toNat - 'A'.toNat + 10)
  else none

/-- Four hexadecimal digits. -/
def readHex (c : Cursor) : Except Fault (Nat × Cursor) :=
  if c.bytesLeft < 4 then .error ⟨.endInString, c.offset + c.bytesLeft⟩
  else match (c.rest.take 4).mapM hexValue? with
    | some [a, b, d, e] =>
      .ok (((a * 16 + b) * 16 + d) * 16 + e, ⟨c.rest.drop 4, c.offset + 4⟩)
    | _ => .error ⟨.invalidEscape, c.offset + 4⟩

/-- A string as read: its characters in reverse, and the first fault in what they name. -/
structure StringDraft where
  reversed : List Char := []
  fault : Option Fault := none
  deriving Inhabited

def StringDraft.push (s : StringDraft) (c : Char) : StringDraft :=
  { s with reversed := c :: s.reversed }

def StringDraft.blame (s : StringDraft) (f : Fault) : StringDraft :=
  { s with fault := s.fault <|> some f }

def isLeading (n : Nat) : Bool := 0xD800 ≤ n && n ≤ 0xDBFF

def isTrailing (n : Nat) : Bool := 0xDC00 ≤ n && n ≤ 0xDFFF

/-- A `\u` escape after its `u`. Surrogates are only allowed as a pair of two escapes. -/
def readUnicode (s : StringDraft) (c : Cursor) : Except Fault (StringDraft × Cursor) := do
  let (n, c) ← readHex c
  if isTrailing n then pure (s.blame (c.here .loneSurrogate), c)
  else if isLeading n then
    match c.rest with
    | [] => .error (c.here .endInString)
    | '\\' :: 'u' :: _ =>
      let (m, after) ← readHex c.advance.advance
      if isTrailing m then
        pure (s.push (Char.ofNat ((n - 0xD800) * 0x400 + (m - 0xDC00) + 0x10000)), after)
      else pure (s.blame (after.here .loneSurrogate), after)
    | ['\\'] => .error (c.advance.here .endInString)
    | '\\' :: _ => pure (s.blame (c.advance.ahead .unfinishedSurrogatePair), c)
    | _ => pure (s.blame (c.ahead .unfinishedSurrogatePair), c)
  else pure (s.push (Char.ofNat n), c)

/-- The character a one-letter escape stands for. -/
def simpleEscape? : Char → Option Char
  | '"' => some '"'
  | '\\' => some '\\'
  | '/' => some '/'
  | 'b' => some '\x08'
  | 'f' => some '\x0c'
  | 'n' => some '\n'
  | 'r' => some '\r'
  | 't' => some '\t'
  | _ => none

/-- A string after its opening quote. The first argument bounds the characters left. -/
def readString : Nat → StringDraft → Cursor → Except Fault (StringDraft × Cursor)
  | 0, _, c => .error (c.here .endInString)
  | fuel + 1, s, c =>
    match c.rest with
    | [] => .error (c.here .endInString)
    | '"' :: _ => .ok (s, c.advance)
    | '\\' :: _ =>
      let c := c.advance
      match c.rest with
      | [] => .error (c.here .endInString)
      | 'u' :: _ =>
        match readUnicode s c.advance with
        | .ok (s, c) => readString fuel s c
        | .error f => .error (s.fault.getD f)
      | x :: _ =>
        match simpleEscape? x with
        | some y => readString fuel (s.push y) c.advance
        | none => .error (s.fault.getD (c.advance.here .invalidEscape))
    | x :: _ =>
      if x.toNat < 0x20 then .error (s.fault.getD (c.advance.here .controlCharacter))
      else readString fuel (s.push x) c.advance

/-- The text of a string, or the fault in what it names. -/
def StringDraft.text (s : StringDraft) : Except Fault String :=
  match s.fault with
  | some f => .error f
  | none => .ok (String.ofList s.reversed.reverse)

mutual

/-- One value. The first argument bounds the characters left, the second the nesting left. -/
def readValue : Nat → Nat → Cursor → Reading
  | 0, _, c => stop (c.here .endInValue)
  | fuel + 1, depth, c =>
    let c := c.skipBlanks
    match c.rest with
    | [] => stop (c.ahead .endInValue)
    | x :: _ =>
      if x == 'n' then readWord c.advance ['u', 'l', 'l'] .null
      else if x == 't' then readWord c.advance ['r', 'u', 'e'] (.bool true)
      else if x == 'f' then readWord c.advance ['a', 'l', 's', 'e'] (.bool false)
      else if x == '-' then readNumber true c.advance
      else if Double.isDigit x then readNumber false c
      else if x == '"' then
        match readString (fuel + 1) {} c.advance with
        | .error f => stop f
        | .ok (s, after) =>
          match s.text with
          | .ok t => (.str t, some after)
          | .error f => (.refused f, some after)
      else if x == '[' then
        if depth ≤ 1 then stop (c.ahead .tooDeep)
        else
          let (items, fault, after) := readItems fuel (depth - 1) true c.advance
          (.arr items fault, after)
      else if x == '\x7b' then
        if depth ≤ 1 then stop (c.ahead .tooDeep)
        else
          let (fields, fault, after) := readFields fuel (depth - 1) true c.advance
          (.obj fields fault, after)
      else stop (c.ahead .expectedValue)

/-- The items of an array after its bracket or after an item. -/
def readItems : Nat → Nat → Bool → Cursor → List Draft × Option Fault × Option Cursor
  | 0, _, _, c => ([], some (c.here .endInList), none)
  | fuel + 1, depth, first, c =>
    let c := c.skipBlanks
    match c.rest with
    | [] => ([], some (c.ahead .endInList), none)
    | x :: _ =>
      if x == ']' then ([], none, some c.advance)
      else if !first && x != ',' then ([], some (c.ahead .expectedListCommaOrEnd), none)
      else
        let c := if first then c else c.advance.skipBlanks
        match first, c.rest with
        | false, [] => ([], some (c.ahead .endInValue), none)
        | false, ']' :: _ => ([], some (c.ahead .trailingComma), none)
        | _, _ =>
          match readValue fuel depth c with
          | (item, none) => ([item], none, none)
          | (item, some after) =>
            let (items, fault, after) := readItems fuel depth false after
            (item :: items, fault, after)

/-- The fields of an object after its brace or after a field. -/
def readFields : Nat → Nat → Bool → Cursor → List (String × Draft) × Option Fault × Option Cursor
  | 0, _, _, c => ([], some (c.here .endInObject), none)
  | fuel + 1, depth, first, c =>
    let c := c.skipBlanks
    match c.rest with
    | [] => ([], some (c.ahead .endInObject), none)
    | x :: _ =>
      if x == '\x7d' then ([], none, some c.advance)
      else if !first && x != ',' then ([], some (c.ahead .expectedObjectCommaOrEnd), none)
      else
        let c := if first then c else c.advance.skipBlanks
        match c.rest with
        | [] => ([], some (c.ahead .endInValue), none)
        | '\x7d' :: _ => ([], some (c.ahead .trailingComma), none)
        | '"' :: _ =>
          match readString (fuel + 1) {} c.advance with
          | .error f => ([], some f, none)
          | .ok (s, c) =>
            match s.text with
            | .error f => ([], some f, none)
            | .ok key =>
              let c := c.skipBlanks
              match c.rest with
              | [] => ([], some (c.ahead .endInObject), none)
              | ':' :: _ =>
                match readValue fuel depth c.advance with
                | (v, none) => ([(key, v)], none, none)
                | (v, some after) =>
                  let (fields, fault, after) := readFields fuel depth false after
                  ((key, v) :: fields, fault, after)
              | _ => ([], some (c.ahead .expectedColon), none)
        | _ => ([], some (c.ahead .keyNotAString), none)

end

/-- A text as a draft, and the fault of characters after it. -/
def draftOf (text : String) : Draft × Option Fault :=
  let cs := text.toList
  match readValue (2 * cs.length + 2) depthLimit ⟨cs, 0⟩ with
  | (v, none) => (v, none)
  | (v, some c) =>
    let c := c.skipBlanks
    (v, if c.rest.isEmpty then none else some (c.ahead .trailingCharacters))

/-- Ends a reading with a fault, if there is one. -/
def refuse (fault : Option Fault) : Except Fault Unit :=
  match fault with
  | some f => .error f
  | none => .ok ()

mutual

/-- The value of a draft, or its first fault. -/
def Draft.toJson : Draft → Except Fault Json
  | .null => .ok .null
  | .bool b => .ok (.bool b)
  | .int n => .ok (.int n)
  | .float d => .ok (.float d)
  | .str s => .ok (.str s)
  | .arr items fault => do
    let vs ← toJsonItems items
    refuse fault
    pure (.arr vs)
  | .obj fields fault => do
    let kvs ← toJsonFields fields
    refuse fault
    pure (.obj (Named.putAll [] kvs))
  | .refused f => .error f
  | .broken f => .error f

def toJsonItems : List Draft → Except Fault (List Json)
  | [] => .ok []
  | v :: rest => do
    let x ← v.toJson
    let xs ← toJsonItems rest
    pure (x :: xs)

def toJsonFields : List (String × Draft) → Except Fault (List (String × Json))
  | [] => .ok []
  | (k, v) :: rest => do
    let x ← v.toJson
    let xs ← toJsonFields rest
    pure ((k, x) :: xs)

end

mutual

/-- The first fault of form; what a string or number names is not looked at. -/
def Draft.skip : Draft → Except Fault Unit
  | .arr items fault => do
    skipItems items
    refuse fault
  | .obj fields fault => do
    skipFields fields
    refuse fault
  | .broken f => .error f
  | _ => .ok ()

def skipItems : List Draft → Except Fault Unit
  | [] => .ok ()
  | v :: rest => do
    v.skip
    skipItems rest

def skipFields : List (String × Draft) → Except Fault Unit
  | [] => .ok ()
  | (_, v) :: rest => do
    v.skip
    skipFields rest

end

/-- Reads a text as one JSON value. -/
def read (text : String) : Except Fault Json := do
  let (draft, rest) := draftOf text
  let v ← draft.toJson
  refuse rest
  pure v

/-- Reads a text as one JSON value, or says why not. -/
def parse (text : String) : Except String Json :=
  (read text).mapError (·.message text)

end RuleService.Json
