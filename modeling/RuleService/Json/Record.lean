import RuleService.Json.Reader
import RuleService.Double.Format
import RuleService.Text.Quoted

namespace RuleService.Json

/-- Why a draft is not read as what is wanted. -/
inductive Misfit where
  | form (cause : Cause)
  | wrongKind (found expected : String)
  | wrongValue (found expected : String)
  | duplicateField (name : String)
  | other (message : String)
  deriving DecidableEq, Repr

def Misfit.message : Misfit → String
  | form cause => cause.message
  | wrongKind found expected => "invalid type: " ++ found ++ ", expected " ++ expected
  | wrongValue found expected => "invalid value: " ++ found ++ ", expected " ++ expected
  | duplicateField name => "duplicate field \x60" ++ name ++ "\x60"
  | other message => message

abbrev Decoded (α : Type) := Except Misfit α

def formed {α : Type} (r : Except Fault α) : Decoded α := r.mapError fun f => .form f.cause

namespace Draft

/-- How a value is named in a misfit. -/
def describe : Draft → Decoded String
  | .null => .ok "null"
  | .bool b => .ok ("boolean \x60" ++ (if b then "true" else "false") ++ "\x60")
  | .int n => .ok ("integer \x60" ++ toString n ++ "\x60")
  | .float d => .ok ("floating point \x60" ++ Double.documentLayout.render d ++ "\x60")
  | .str s => .ok ("string " ++ Text.quoted s)
  | .arr .. => .ok "sequence"
  | .obj .. => .ok "map"
  | .refused f => .error (.form f.cause)
  | .broken f => .error (.form f.cause)

/-- Refuses a value of another kind than expected. -/
def unexpected {α : Type} (expected : String) (v : Draft) : Decoded α := do
  let found ← v.describe
  throw (.wrongKind found expected)

/-- A string; the second argument names what is expected. -/
def text (expected : String) : Draft → Decoded String
  | .str s => .ok s
  | v => v.unexpected expected

def boolean : Draft → Decoded Bool
  | .bool b => .ok b
  | v => v.unexpected "a boolean"

/-- A whole number from 0 to a limit; the second argument names the numbers in between. -/
def natural (limit : Nat) (expected : String) : Draft → Decoded Nat
  | .int n =>
    if 0 ≤ n ∧ n ≤ limit then .ok n.toNat
    else do
      let found ← (Draft.int n).describe
      throw (.wrongValue found expected)
  | v => v.unexpected expected

def any (v : Draft) : Decoded Json := formed v.toJson

/-- Reads the values of an object in order. -/
def entries {α : Type} (value : Draft → Decoded α) : List (String × Draft) →
    Decoded (List (String × α))
  | [] => .ok []
  | (key, v) :: rest => do
    let x ← value v
    let xs ← entries value rest
    pure ((key, x) :: xs)

/-- An object with values of one kind. -/
def map {α : Type} (value : Draft → Decoded α) : Draft → Decoded (List (String × α))
  | .obj fields fault => do
    let kvs ← entries value fields
    formed (refuse fault)
    pure kvs
  | v => v.unexpected "a map"

/-- Null, or a value. -/
def optional {α : Type} (value : Draft → Decoded α) : Draft → Decoded (Option α)
  | .null => .ok none
  | v => some <$> value v

end Draft

/-- A kind of record: its name, its fields, and how the value of a field enters it. -/
structure RecordKind (σ : Type) where
  name : String
  fields : List String
  set : σ → String → Draft → Decoded σ

namespace RecordKind

variable {σ : Type}

/-- Reads the fields of an object. -/
def readFields (kind : RecordKind σ) (seen : List String) (s : σ) :
    List (String × Draft) → Decoded σ
  | [] => .ok s
  | (key, v) :: rest =>
    if !kind.fields.contains key then do
      formed v.skip
      readFields kind seen s rest
    else if seen.contains key then .error (.duplicateField key)
    else do
      let s ← kind.set s key v
      readFields kind (key :: seen) s rest

/-- Reads the items of an array as the values of the fields in turn; what follows the last field is
given back. -/
def readItems (kind : RecordKind σ) (s : σ) : List String → List Draft → Decoded (σ × List Draft)
  | _, [] => .ok (s, [])
  | [], more => .ok (s, more)
  | name :: names, v :: rest => do
    let s ← kind.set s name v
    readItems kind s names rest

/-- The fault of an array whose fields have all been given. -/
def endFault (fault : Fault) : Cause :=
  match fault.cause with
  | .trailingComma => .trailingComma
  | .endInList => .endInList
  | _ => .trailingCharacters

/-- Reads a draft as a record, over one that holds what absent fields have: an object with known fields, where
others are passed over, or an array of their values in the order of the declaration. -/
def read (kind : RecordKind σ) (start : σ) : Draft → Decoded σ
  | .obj fields fault => do
    let s ← kind.readFields [] start fields
    formed (refuse fault)
    pure s
  | .arr items fault => do
    let (s, more) ← kind.readItems start kind.fields items
    if !more.isEmpty then throw (.form .trailingCharacters)
    match fault with
    | none => pure s
    | some f =>
      throw (.form (if items.length = kind.fields.length then endFault f else f.cause))
  | v => v.unexpected ("struct " ++ kind.name)

def readText (kind : RecordKind σ) (start : σ) (text : String) : Decoded σ := do
  let (draft, rest) := draftOf text
  let s ← kind.read start draft
  formed (refuse rest)
  pure s

end RecordKind

end RuleService.Json
