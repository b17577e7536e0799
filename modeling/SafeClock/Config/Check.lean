import SafeClock.Config.Basic
import SafeClock.Log
import SafeClock.Text.Blank

/-!
# Configurations that can be used

`Config.check` goes through the sections in their order and names the first field that cannot be
used. Some fields must hold more than blanks, others only must not be empty.
-/

set_option autoImplicit false

namespace SafeClock

/-- Why a configuration cannot be used. -/
inductive ConfigError where
  | invalidBand (low high : Nat)
  | invalidStep (step : Nat)
  | invalidTrials (trials : Nat)
  | invalidMaxIterations (limit : Nat)
  | invalidRuns (runs : Nat)
  | invalidLogLevel (level : String)
  | emptyField (field : String)
  /-- Traces are read from a log file, but no path for it is given. -/
  | noLogPath
deriving DecidableEq, Repr

/-- The text shown for a configuration error. -/
def ConfigError.message : ConfigError → String
  | invalidBand low high =>
    s!"Invalid frequency range: low ({low}) must not exceed high ({high})"
  | invalidStep step => s!"Invalid step: {step}. Must be positive"
  | invalidTrials trials => s!"Invalid measurements: {trials}. Must be at least 1"
  | invalidMaxIterations limit => s!"Invalid max_iterations: {limit}. Must be at least 1"
  | invalidRuns runs => s!"Invalid testbench runs: {runs}. Must be at least 1"
  | invalidLogLevel level =>
    "Invalid log level: " ++ level ++ ". Must be one of: trace, debug, info, warn, error"
  | emptyField field => field ++ " cannot be empty"
  | noLogPath =>
    "Configuration validation failed: toolchain.log_path is required when trace_source is log_file"

namespace Config

open SafeClock.Text (allBlank)

/-- The names of levels that a configuration may give, in small letters. -/
def levelNames : List String := ["trace", "debug", "info", "warn", "error"]

/-- The faults of a configuration that were found, in the order in which they are looked for. Each
line is a condition and the fault it is. -/
def faults (c : Config) : List (Bool × ConfigError) :=
  [ (c.search.band.high < c.search.band.low,
      .invalidBand c.search.band.low c.search.band.high),
    (c.search.step == 0, .invalidStep c.search.step),
    (c.search.trials == 0, .invalidTrials c.search.trials),
    (c.search.maxIterations == 0, .invalidMaxIterations c.search.maxIterations),
    (allBlank c.search.application, .emptyField "search.application"),
    (c.platform.lead.isEmpty, .emptyField "platform.declaration_prefix"),
    (c.platform.header.isEmpty, .emptyField "platform.traits_path"),
    (allBlank c.toolchain.program, .emptyField "toolchain.program"),
    (c.toolchain.runArguments.isEmpty, .emptyField "toolchain.run_args"),
    (c.toolchain.traceSource == .logFile && allBlank c.toolchain.logPath, .noLogPath),
    (c.trace.lead.isEmpty, .emptyField "trace.dispatch_prefix"),
    (c.trace.transitions.any TransitionTable.isEmpty, .emptyField "trace.transitions"),
    (c.testbench.runs == 0, .invalidRuns c.testbench.runs),
    (c.testbench.failureMarker.isEmpty, .emptyField "testbench.failure_marker"),
    (!levelNames.contains (Log.Level.inSmallLetters c.logging.level),
      .invalidLogLevel c.logging.level) ]

/-- Refuses a configuration that cannot be used, naming its first fault. -/
def check (c : Config) : Except ConfigError Unit :=
  match c.faults.find? Prod.fst with
  | some (_, fault) => .error fault
  | none => .ok ()

end Config

end SafeClock
