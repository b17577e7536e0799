import SafeClock.CommandLine.Basic
import SafeClock.Text.Decimal

/-!
# Command lines

A command line is read on two levels. The first holds the switches that every command has and the
name of a command; the second holds the arguments of that command, and the common switches again. A
common switch on the second level has precedence over the first, and either over the environment.

An option takes the rest of its own argument as its value, or else the next argument, which must
not look like a switch. What was given for an option is only examined when the next switch comes or
the level ends, so that an unknown argument directly behind a bad value is what gets reported.
-/

set_option autoImplicit false

namespace SafeClock.CommandLine

/-- What a parameter takes. -/
inductive Takes where
  /-- Nothing: the parameter is a switch. -/
  | nothing
  /-- Nothing, and asks for help. -/
  | help
  /-- Nothing, and asks for the version. -/
  | version
  /-- A number below a limit. If `signed`, a minus sign in front of zero is allowed. -/
  | number (limit : Nat) (signed : Bool)
  /-- Any text. -/
  | text
  /-- A path, which is not empty. -/
  | path
deriving DecidableEq

/-- A switch, an option or a positional argument. -/
structure Parameter where
  name : String
  short : Option Char := none
  takes : Takes
deriving DecidableEq

/-- Whether a parameter takes a value. -/
def Parameter.hasValue (p : Parameter) : Bool :=
  match p.takes with
  | .nothing | .help | .version => false
  | .number _ _ | .text | .path => true

/-- What was given for a parameter. -/
inductive Given where
  | present
  | number (n : Nat)
  | text (s : String)

/-- The arguments of one level. -/
structure Level where
  parameters : List Parameter
  positional : Option Parameter := none
  subcommands : List String := []

def json : Parameter := ⟨"json", some 'j', .nothing⟩

def config : Parameter := ⟨"config", some 'c', .path⟩

def help : Parameter := ⟨"help", some 'h', .help⟩

def low : Parameter := ⟨"low", none, .number frequencyLimit false⟩

def high : Parameter := ⟨"high", none, .number frequencyLimit false⟩

def step : Parameter := ⟨"step", some 's', .number frequencyLimit false⟩

def measurements : Parameter := ⟨"measurements", some 'm', .number countLimit true⟩

def application : Parameter := ⟨"application", some 'a', .text⟩

def runs : Parameter := ⟨"runs", some 'r', .number countLimit true⟩

def output : Parameter := ⟨"output", some 'o', .path⟩

def file : Parameter := ⟨"file", none, .path⟩

/-- The first level. -/
def outer : Level where
  parameters := [json, config, help, ⟨"version", some 'V', .version⟩]
  subcommands := ["search", "testbench", "validate", "help"]

def searchLevel : Level where
  parameters := [low, high, step, measurements, application, json, config, help]

def testbenchLevel : Level where
  parameters := [runs, application, output, json, config, help]

def validateLevel : Level where
  parameters := [json, config, help]
  positional := some file

/-- The second level of a command. -/
def innerLevel? : String → Option Level
  | "search" => some searchLevel
  | "testbench" => some testbenchLevel
  | "validate" => some validateLevel
  | _ => none

/-- How far a level has been read. -/
structure Scan where
  given : List (String × Given) := []
  /-- The parameter that was named last, with its value if there is one yet. -/
  pending : Option (Parameter × Option String) := none

namespace Scan

/-- What was given for a parameter. -/
def get? (s : Scan) (p : Parameter) : Option Given :=
  (s.given.find? (·.1 == p.name)).map Prod.snd

/-- Whether an option waits for its value. -/
def isWaiting (s : Scan) : Bool :=
  match s.pending with
  | some (_, none) => true
  | _ => false

/-- Reads a number. -/
def readNumber? (limit : Nat) (signed : Bool) (value : String) : Option Nat :=
  match value.toList, signed with
  | '-' :: digits, true => (Text.readDigits? digits).filter (· == 0)
  | cs, _ => Text.readWord? limit cs

/-- Reads the value of a parameter. -/
def examine (p : Parameter) (value : Option String) : Except UsageError Given :=
  match p.takes, value with
  | .help, _ => .error .helpWanted
  | .version, _ => .error .versionWanted
  | .nothing, _ => .ok .present
  | _, none => .error .missingValue
  | .number limit signed, some v =>
    match readNumber? limit signed v with
    | some n => .ok (.number n)
    | none => .error .notANumber
  | .text, some v => .ok (.text v)
  | .path, some v => if v.isEmpty then .error .missingValue else .ok (.text v)

/-- Takes in a parameter with its value, if it has one. A value that is missing is found before a
repetition, and a value that cannot be read after it. -/
def take (s : Scan) (p : Parameter) (value : Option String) : Except UsageError Scan :=
  if p.hasValue ∧ value.isNone then .error .missingValue
  else if (s.get? p).isSome then .error .repeated
  else (examine p value).map fun g => { s with given := s.given ++ [(p.name, g)] }

/-- Takes in the parameter that was named last. -/
def settle (s : Scan) : Except UsageError Scan :=
  match s.pending with
  | none => .ok s
  | some (p, value) => { s with pending := none }.take p value

/-- Names a parameter that has all it takes. -/
def name (s : Scan) (p : Parameter) (value : Option String) : Except UsageError Scan := do
  (← s.settle).take p value

/-- Names a parameter whose value is still to come. -/
def await (s : Scan) (p : Parameter) (value : Option String) : Except UsageError Scan := do
  return { (← s.settle) with pending := some (p, value) }

end Scan

namespace Level

/-- Reads an argument that starts with two dashes; `body` is what follows them. -/
def scanLong (level : Level) (body : List Char) (s : Scan) : Except UsageError Scan :=
  let name := String.ofList (body.takeWhile (· != '='))
  match level.parameters.find? (·.name == name), body.dropWhile (· != '=') with
  | none, _ => .error .unknownArgument
  | some p, [] => if p.hasValue then s.await p none else s.name p none
  | some p, _ :: value =>
    if p.hasValue then s.name p (some (String.ofList value)) else .error .surplusValue

/-- Reads an argument that starts with one dash: switches, and perhaps an option at the end, which
takes all that follows it as its value. -/
def scanShort (level : Level) : List Char → Scan → Except UsageError Scan
  | [], s => .ok s
  | c :: rest, s =>
    match level.parameters.find? (·.short == some c) with
    | none => .error .unknownArgument
    | some p =>
      if p.hasValue then
        match rest with
        | [] => s.await p none
        | '=' :: value => s.name p (some (String.ofList value))
        | value => s.name p (some (String.ofList value))
      else
        match s.name p none with
        | .error e => .error e
        | .ok s => level.scanShort rest s

/-- The error of an argument that nothing takes. A name of a command behind two dashes counts as an
argument, and any other as a command that is not known. -/
def surplus (level : Level) (trailing : Bool) (argument : String) : UsageError :=
  if level.subcommands.isEmpty ∨ (trailing ∧ argument ∈ level.subcommands) then .unknownArgument
  else .unknownSubcommand

/-- Reads the arguments of a level, up to the name of a command, if one comes. Behind two dashes
that stand alone (`trailing`) every argument is positional. -/
def scan (level : Level) (trailing : Bool) (positional : Option Parameter) :
    List String → Scan → Except UsageError (Scan × Option (String × List String))
  | [], s => .ok (s, none)
  | argument :: rest, s =>
    let asPositional : Except UsageError (Scan × Option (String × List String)) :=
      match positional with
      | some p =>
        match s.await p (some argument) with
        | .error e => .error e
        | .ok s => level.scan trailing none rest s
      | none => .error (level.surplus trailing argument)
    if trailing then asPositional
    else if ¬ s.isWaiting ∧ argument ∈ level.subcommands then .ok (s, some (argument, rest))
    else
      match argument.toList with
      | ['-', '-'] => level.scan true positional rest s
      | '-' :: '-' :: body =>
        match level.scanLong body s with
        | .error e => .error e
        | .ok s => level.scan false positional rest s
      | '-' :: c :: body =>
        match level.scanShort (c :: body) s with
        | .error e => .error e
        | .ok s => level.scan false positional rest s
      | _ =>
        match s.pending with
        | some (p, none) =>
          level.scan false positional rest { s with pending := some (p, some argument) }
        | _ => asPositional

/-- Ends a level: the last value is examined. A level on which no configuration file is given looks
at the one that the environment names, whose path must not be empty. -/
def finish (environment : Option String) (s : Scan) : Except UsageError Scan :=
  match s.settle with
  | .error e => .error e
  | .ok s =>
    if (s.get? config).isNone ∧ environment = some "" then .error .missingValue else .ok s

end Level

/-- Asks for help about a command, or about a word that is none. -/
def helpOn : List String → UsageError
  | [] => .helpWanted
  | [command] => if command ∈ outer.subcommands then .helpWanted else .unknownSubcommand
  | _ => .unknownSubcommand

namespace Scan

/-- The number given for a parameter. -/
def number? (s : Scan) (p : Parameter) : Option Nat :=
  match s.get? p with
  | some (.number n) => some n
  | _ => none

/-- The text given for a parameter. -/
def text? (s : Scan) (p : Parameter) : Option String :=
  match s.get? p with
  | some (.text t) => some t
  | _ => none

/-- The command that a second level describes. -/
def command? (s : Scan) : String → Option Command
  | "search" =>
    some (.search
      { low := s.number? CommandLine.low
        high := s.number? CommandLine.high
        step := s.number? CommandLine.step
        trials := s.number? CommandLine.measurements
        application := s.text? CommandLine.application })
  | "testbench" =>
    some (.testbench
      { runs := s.number? CommandLine.runs
        application := s.text? CommandLine.application
        output := s.text? CommandLine.output })
  | "validate" => (s.text? CommandLine.file).map .validate
  | _ => none

end Scan

/-- Reads the second level. -/
def parseInner (environment : Option String) (name : String) (args : List String) :
    Except UsageError (Scan × Command) :=
  match innerLevel? name with
  | none => .error (helpOn args)
  | some level => do
    let (s, _) ← level.scan false level.positional args {}
    let s ← Level.finish environment s
    match s.command? name with
    | some command => return (s, command)
    | none => .error .missingArgument

/-- Reads a command line, without the name of the program. `environment` names a configuration
file to use if the command line does not. -/
def parse (environment : Option String) (args : List String) : Except UsageError Invocation := do
  let (first, found) ← outer.scan false none args {}
  match found with
  | some (name, rest) =>
    let (second, command) ← parseInner environment name rest
    let first ← Level.finish environment first
    return {
      json := (first.get? json).isSome || (second.get? json).isSome
      config := second.text? config <|> first.text? config <|> environment
      command := command }
  | none =>
    let first ← Level.finish environment first
    .error (if first.given.isEmpty ∧ environment.isNone then .noArguments else .noSubcommand)

end SafeClock.CommandLine
