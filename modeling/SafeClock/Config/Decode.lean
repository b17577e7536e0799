import SafeClock.Config.Encode

/-!
# Documents read as configurations

A section may be given as a record of its fields, or as a list of them in their order. What is left
out gets its default from the reader, which names one for each field, and fields that no section has
are passed over. A choice between names is given by the name, or by a record with that name and
nothing behind it.

A document that is read on its own (`Dialect.single`) and one that was merged from layers
(`Dialect.layered`) differ in three small points. The layered reading passes over the surplus items
of a list, takes the first name of a record in the order of names, and lets a choice be given by
its number.

Numbers and texts are never taken for each other. Only whether a document can be read matters to
those who ask for it, so a document that cannot be read has no further explanation.
-/

set_option autoImplicit false

namespace SafeClock.Config

/-- Whether a document is read on its own or was merged from layers. -/
inductive Dialect where
  | single
  | layered
deriving DecidableEq, Repr

/-- The fields of a section, found by place or by name. -/
inductive Fields where
  | named (fields : List (String × Value))
  | placed (items : List Value)

namespace Fields

/-- The fields of a section that has `count` of them. -/
def ofValue? (d : Dialect) (count : Nat) : Value → Option Fields
  | .record fields => some (.named fields)
  | .list items =>
    if d = .single ∧ count < items.length then none else some (.placed items)
  | _ => none

/-- The field at a place, by its name or by that place. -/
def get? (place : Nat) (name : String) : Fields → Option Value
  | named fields => Value.lookup name fields
  | placed items => items[place]?

/-- A field that has a default. -/
def getD {α : Type} (f : Fields) (place : Nat) (name : String) (default : α)
    (read : Value → Option α) : Option α :=
  match f.get? place name with
  | some v => read v
  | none => some default

/-- A field that must be given. -/
def require {α : Type} (f : Fields) (place : Nat) (name : String) (read : Value → Option α) :
    Option α :=
  (f.get? place name).bind read

end Fields

/-- A natural number below a limit. -/
def readNat? (limit : Nat) : Value → Option Nat
  | .int i => if 0 ≤ i ∧ i < limit then some i.toNat else none
  | _ => none

/-- A text. -/
def readText? : Value → Option String
  | .text s => some s
  | _ => none

/-- A truth value. -/
def readBool? : Value → Option Bool
  | .bool b => some b
  | _ => none

/-- A list of texts. -/
def readTexts? : Value → Option (List String)
  | .list items => items.mapM readText?
  | _ => none

/-- A text, or null for none. -/
def readOptional? {α : Type} (read : Value → Option α) : Value → Option (Option α)
  | .null => some none
  | v => (read v).map some

/-- The field whose name comes first in the order of names. -/
def leastField? : List (String × Value) → Option (String × Value)
  | [] => none
  | field :: rest => some (rest.foldl (fun a b => if b.1 < a.1 then b else a) field)

/-- One of some named choices. -/
def readChoice? {α : Type} (d : Dialect) (choices : List (String × α)) (v : Value) : Option α :=
  let named (name : String) := (choices.find? (·.1 == name)).map Prod.snd
  match v, d with
  | .text name, _ => named name
  | .record [(name, .null)], .single => named name
  | .record fields, .layered =>
    match leastField? fields with
    | some (name, .null) => named name
    | _ => none
  | .int i, .layered => if 0 ≤ i ∧ i < countLimit then (choices[i.toNat]?).map Prod.snd else none
  | _, _ => none

def readBand? (d : Dialect) (v : Value) : Option Band := do
  let f ← Fields.ofValue? d 2 v
  let low ← f.require 0 "low" (readNat? frequencyLimit)
  let high ← f.require 1 "high" (readNat? frequencyLimit)
  some ⟨low, high⟩

/-- A table is a record of lists; the successors of an event may be listed in any order, and more
than once. -/
def readTable? : Value → Option TransitionTable
  | .record fields =>
    (fields.mapM fun field => (readTexts? field.2).map fun next => (field.1, next)).map
      TransitionTable.ofList
  | _ => none

def readSearch? (d : Dialect) (v : Value) : Option SearchSection := do
  let f ← Fields.ofValue? d 5 v
  let default : SearchSection := {}
  let band ← f.getD 0 "range" default.band (readBand? d)
  let step ← f.getD 1 "step" default.step (readNat? frequencyLimit)
  let trials ← f.getD 2 "measurements" default.trials (readNat? countLimit)
  let application ← f.getD 3 "application" default.application readText?
  let maxIterations ← f.getD 4 "max_iterations" default.maxIterations (readNat? countLimit)
  some { band, step, trials, application, maxIterations }

def readPlatform? (d : Dialect) (v : Value) : Option PlatformSection := do
  let f ← Fields.ofValue? d 2 v
  let default : PlatformSection := {}
  let header ← f.getD 0 "traits_path" default.header readText?
  let lead ← f.getD 1 "declaration_prefix" default.lead readText?
  some { header, lead }

def traceSources : List (String × TraceSource) :=
  [TraceSource.logFile, .standardOutput].map fun s => (s.name, s)

def readToolchain? (d : Dialect) (v : Value) : Option ToolchainSection := do
  let f ← Fields.ofValue? d 6 v
  let default : ToolchainSection := {}
  let program ← f.getD 0 "program" default.program readText?
  let cleanTargets ← f.getD 1 "clean_targets" default.cleanTargets readTexts?
  let runArguments ← f.getD 2 "run_args" default.runArguments readTexts?
  let workingDirectory ← f.getD 3 "working_dir" default.workingDirectory readText?
  let traceSource ← f.getD 4 "trace_source" default.traceSource (readChoice? d traceSources)
  let logPath ← f.getD 5 "log_path" default.logPath readText?
  some { program, cleanTargets, runArguments, workingDirectory, traceSource, logPath }

def readTrace? (d : Dialect) (v : Value) : Option TraceSection := do
  let f ← Fields.ofValue? d 2 v
  let default : TraceSection := {}
  let lead ← f.getD 0 "dispatch_prefix" default.lead readText?
  let transitions ← f.getD 1 "transitions" none (readOptional? readTable?)
  some { lead, transitions }

def readTestbench? (d : Dialect) (v : Value) : Option TestbenchSection := do
  let f ← Fields.ofValue? d 5 v
  let default : TestbenchSection := {}
  let runs ← f.getD 0 "runs" default.runs (readNat? countLimit)
  let application ← f.getD 1 "application" default.application readText?
  let failureMarker ← f.getD 2 "failure_marker" default.failureMarker readText?
  let successMarker ← f.getD 3 "success_marker" default.successMarker readText?
  let failureOutput ← f.getD 4 "failure_output" default.failureOutput readText?
  some { runs, application, failureMarker, successMarker, failureOutput }

def logFormats : List (String × LogFormat) :=
  [LogFormat.json, .pretty].map fun x => (x.name, x)

def rotations : List (String × Rotation) :=
  [Rotation.daily, .hourly, .never].map fun x => (x.name, x)

/-- The log directory may be left out of a record, but a list must reach as far as its place. -/
def readLogging? (d : Dialect) (v : Value) : Option LoggingSection := do
  let f ← Fields.ofValue? d 5 v
  let default : LoggingSection := {}
  let level ← f.getD 0 "level" default.level readText?
  let format ← f.getD 1 "format" default.format (readChoice? d logFormats)
  let directory ← match f with
    | .named _ => f.getD 2 "log_dir" none (readOptional? readText?)
    | .placed _ => f.require 2 "log_dir" (readOptional? readText?)
  let console ← f.getD 3 "enable_stdout" true readBool?
  let rotation ← f.getD 4 "rotation" default.rotation (readChoice? d rotations)
  some { level, format, directory, console, rotation }

/-- Reads a document as a configuration. -/
def ofValue? (d : Dialect) (v : Value) : Option Config := do
  let f ← Fields.ofValue? d 6 v
  let search ← f.getD 0 "search" {} (readSearch? d)
  let platform ← f.getD 1 "platform" {} (readPlatform? d)
  let toolchain ← f.getD 2 "toolchain" {} (readToolchain? d)
  let trace ← f.getD 3 "trace" {} (readTrace? d)
  let testbench ← f.getD 4 "testbench" {} (readTestbench? d)
  let logging ← f.getD 5 "logging" {} (readLogging? d)
  some { search, platform, toolchain, trace, testbench, logging }

end SafeClock.Config
