import RuleService.Json.Record
import RuleService.Request
import RuleService.Storage.Files
import RuleService.Storage.Objects
import RuleService.Text.Blank

namespace RuleService

open Json

structure Settings where
  port : Nat := 8080
  serviceDescriptor : String := "./data/service.json"
  accessLog : Bool := false
  noDefaultIndex : Bool := false
  logLevel : String := "info"
  /-- Script files by the names of their modules, in the order of the names. -/
  imports : Texts := []
  /-- The endpoint of the object storage. -/
  endpoint : String := ObjectStore.stockEndpoint
  /-- How long the object storage may take. -/
  timeoutMs : Nat := 10000
  deriving DecidableEq, Repr, Inhabited

/-- Why a configuration file is not used. -/
inductive SettingsFault where
  | unreadable (path : String) (why : ReadFault)
  | misfit (path : String) (why : Misfit)

def SettingsFault.message : SettingsFault → String
  | unreadable path why => "failed to read " ++ path ++ ": " ++ why.message
  | misfit path why => "failed to parse " ++ path ++ ": " ++ why.message

namespace Settings

def greatestPort : Nat := 65535

def greatestTimeout : Nat := Nat.pow 2 64 - 1

/-- A decimal number up to a limit; a plus sign may precede it. -/
def naturalOf? (limit : Nat) (s : String) : Option Nat :=
  let ds := match s.toList with
    | '+' :: ds => ds
    | ds => ds
  if ds.isEmpty || !ds.all Double.isDigit then none
  else
    let n := Double.natOfDigits ds
    if n ≤ limit then some n else none

/-- A port as a number, or as a text of one with blanks around it. -/
def portOf (v : Draft) : Decoded Nat := do
  match ← v.any with
  | .int n =>
    if 0 ≤ n ∧ n ≤ greatestPort then pure n.toNat
    else throw (.other "data did not match any variant of untagged enum Port")
  | .str s =>
    match naturalOf? greatestPort (Text.trim s) with
    | some n => pure n
    | none => throw (.other ("invalid port: " ++ s))
  | _ => throw (.other "data did not match any variant of untagged enum Port")

/-- The fields for the object storage. -/
def storageKind : RecordKind Settings where
  name := "ObjectStorageConfig"
  fields := ["endpoint", "timeoutMs"]
  set s name v :=
    match name with
    | "endpoint" => (fun x => { s with endpoint := x }) <$> v.text "a string"
    | _ => (fun x => { s with timeoutMs := x }) <$> v.natural greatestTimeout "u64"

/-- Puts texts in the order of their names. -/
def inOrder (texts : Texts) : Texts := texts.mergeSort fun a b => decide (a.1 ≤ b.1)

def kind : RecordKind Settings where
  name := "ServerConfig"
  fields := ["port", "serviceDescriptor", "accessLog", "noDefaultIndex", "logLevel", "imports",
    "objectStorage"]
  set s name v :=
    match name with
    | "port" => (fun x => { s with port := x }) <$> portOf v
    | "serviceDescriptor" => (fun x => { s with serviceDescriptor := x }) <$> v.text "a string"
    | "accessLog" => (fun x => { s with accessLog := x }) <$> v.boolean
    | "noDefaultIndex" => (fun x => { s with noDefaultIndex := x }) <$> v.boolean
    | "logLevel" => (fun x => { s with logLevel := x }) <$> v.text "a string"
    | "imports" => (fun x => { s with imports := inOrder (Named.ofList x) }) <$>
        v.map (Draft.text "path string")
    | _ => storageKind.read s v

def ofText (text : String) : Decoded Settings := kind.readText {} text

/-- The settings in the file at a path; none if there is no file. -/
def load (files : Files) (path : String) : Except SettingsFault (Option Settings) :=
  if !files.isFile path then .ok none
  else do
    let text ← (files.readText path).mapError (.unreadable path)
    let s ← (ofText text).mapError (.misfit path)
    pure (some s)

/-- The settings to go on with, and a notice unless they come from the file. A file that is not read whole
counts for nothing. -/
def loadOrStock (files : Files) (path : String) : Settings × Option String :=
  match load files path with
  | .ok (some s) => (s, none)
  | .ok none => ({}, some (path ++ " not found; using defaults"))
  | .error f => ({}, some (f.message ++ "; using defaults"))

end Settings

end RuleService
