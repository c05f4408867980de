import RuleService.Launch.Settings

namespace RuleService

/-- What the arguments ask for. -/
structure Flags where
  config : String := "./config.json"
  port : Option Nat := none
  service : Option String := none
  watch : Bool := false
  accessLog : Bool := false
  deriving DecidableEq, Repr, Inhabited

/-- Why arguments are not accepted. -/
inductive UsageFault where
  | unknownArgument (argument : String)
  /-- An option has no value, or an empty one where there must be something. -/
  | noValue (option : String)
  | badValue (option value : String)
  /-- An option is given twice. -/
  | repeated (option : String)
  /-- A switch is given a value. -/
  | unwantedValue (option : String)
  | helpWanted
  | versionWanted
  deriving DecidableEq, Repr

def UsageFault.message : UsageFault → String
  | unknownArgument argument => "error: unexpected argument '" ++ argument ++ "' found"
  | noValue option => "error: a value is required for '" ++ option ++ "' but none was supplied"
  | badValue option value => "error: invalid value '" ++ value ++ "' for '" ++ option ++ "'"
  | repeated option => "error: the argument '" ++ option ++ "' cannot be used multiple times"
  | unwantedValue option => "error: unexpected value for '" ++ option ++ "' found; no more were expected"
  | helpWanted => "Serve a declarative JSON service definition"
  | versionWanted => "0.3.0"

namespace CommandLine

/-- The options with a value. -/
inductive Setting where
  | config | port | service
  deriving DecidableEq, Repr

inductive Switch where
  | watch | accessLog | help | version
  deriving DecidableEq, Repr

def Setting.usage : Setting → String
  | config => "--config <CONFIG>"
  | port => "--port <PORT>"
  | service => "--service <SERVICE>"

def Switch.usage : Switch → String
  | watch => "--watch"
  | accessLog => "--access-log"
  | help => "--help"
  | version => "--version"

/-- What has been read of the arguments. -/
structure Progress where
  flags : Flags := {}
  /-- The settings and switches given so far. -/
  settings : List Setting := []
  switches : List Switch := []
  /-- A setting that is not looked at yet, with its value once that is there. -/
  pending : Option (Setting × Option String) := none

/-- An option as it is written. -/
inductive Name where
  | setting (s : Setting)
  | switch (s : Switch)

def longName? : String → Option Name
  | "config" => some (.setting .config)
  | "port" => some (.setting .port)
  | "service" => some (.setting .service)
  | "watch" => some (.switch .watch)
  | "access-log" => some (.switch .accessLog)
  | "help" => some (.switch .help)
  | "version" => some (.switch .version)
  | _ => none

def shortName? : Char → Option Switch
  | 'h' => some .help
  | 'V' => some .version
  | _ => none

/-- A whole number with an optional sign, if it is a port. -/
def portOf? (value : String) : Option Nat :=
  match value.toList with
  | '-' :: ds =>
    (Settings.naturalOf? 0 (String.ofList ds)).filter fun _ => ds.head? != some '+'
  | _ => Settings.naturalOf? Settings.greatestPort value

/-- Gives a setting its value. -/
def assign (flags : Flags) (setting : Setting) (value : String) : Except UsageFault Flags :=
  match setting with
  | .config =>
    if value.isEmpty then .error (.noValue setting.usage) else .ok { flags with config := value }
  | .port =>
    match portOf? value with
    | some n => .ok { flags with port := some n }
    | none => .error (.badValue setting.usage value)
  | .service => .ok { flags with service := some value }

/-- Looks at a setting with the value that was found for it. -/
def take (p : Progress) (setting : Setting) (value : Option String) : Except UsageFault Progress :=
  match value with
  | none => .error (.noValue setting.usage)
  | some value =>
    if p.settings.contains setting then .error (.repeated setting.usage)
    else do
      let flags ← assign p.flags setting value
      pure { p with flags, settings := setting :: p.settings, pending := none }

/-- Looks at the pending setting. -/
def settle (p : Progress) : Except UsageFault Progress :=
  match p.pending with
  | none => .ok p
  | some (setting, value) => take p setting value

def turnOn (p : Progress) (switch : Switch) : Except UsageFault Progress := do
  let p ← settle p
  if p.switches.contains switch then throw (.repeated switch.usage)
  let p := { p with switches := switch :: p.switches }
  match switch with
  | .watch => pure { p with flags := { p.flags with watch := true } }
  | .accessLog => pure { p with flags := { p.flags with accessLog := true } }
  | .help => throw .helpWanted
  | .version => throw .versionWanted

/-- An argument after two dashes: a name, and perhaps a value behind an equals sign. -/
def readLong (p : Progress) (argument : String) (name : String) (value : Option String) :
    Except UsageFault Progress :=
  match longName? name, value with
  | none, _ => .error (.unknownArgument argument)
  | some (.switch s), none => turnOn p s
  | some (.switch s), some _ => .error (.unwantedValue s.usage)
  | some (.setting s), some value => do take (← settle p) s (some value)
  | some (.setting s), none => do
    let p ← settle p
    pure { p with pending := some (s, none) }

/-- The letters after one dash. -/
def readShort (p : Progress) : List Char → Except UsageFault Progress
  | [] => .ok p
  | c :: cs =>
    match shortName? c with
    | some s => do readShort (← turnOn p s) cs
    | none => .error (.unknownArgument (String.ofList ['-', c]))

/-- Reads the arguments in turn. An option takes its value from behind an equals sign or from the next argument,
and is looked at when the argument after that has been recognised. -/
def readAll (p : Progress) : List String → Except UsageFault Progress
  | [] => settle p
  | argument :: rest =>
    match argument.toList, p.pending with
    | ['-', '-'], _ =>
      match rest with
      | [] => settle p
      | next :: _ => .error (.unknownArgument next)
    | '-' :: '-' :: cs, _ => do
      let name := cs.takeWhile (· != '=')
      let value := match cs.dropWhile (· != '=') with
        | _ :: value => some (String.ofList value)
        | [] => none
      readAll (← readLong p argument (String.ofList name) value) rest
    | '-' :: c :: cs, _ => do readAll (← readShort p (c :: cs)) rest
    | _, some (setting, none) =>
      readAll { p with pending := some (setting, some argument) } rest
    | _, _ => .error (.unknownArgument argument)

end CommandLine

namespace Flags

/-- The flags in the arguments, the first of which names the program. -/
def ofArguments (arguments : List String) : Except UsageFault Flags :=
  (CommandLine.readAll {} (arguments.drop 1)).map (·.flags)

/-- The settings with what the flags override, and the notice about the file. -/
def resolve (flags : Flags) (files : Files) : Settings × Option String :=
  let (s, notice) := Settings.loadOrStock files flags.config
  ({ s with
      port := flags.port.getD s.port,
      serviceDescriptor := flags.service.getD s.serviceDescriptor,
      accessLog := flags.accessLog || s.accessLog }, notice)

end Flags

end RuleService
