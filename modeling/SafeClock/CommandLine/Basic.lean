import SafeClock.Config.Basic

/-!
# What the operator asks for

An `Invocation` is a command with its options, and the two options that every command has. Options
that are given go over the configuration; what is not given leaves it alone. A `UsageError` is a
command line that names no invocation, or one that asks for help or the version instead.
-/

set_option autoImplicit false

namespace SafeClock.CommandLine

/-- The options of a search. -/
structure SearchOptions where
  low : Option Nat := none
  high : Option Nat := none
  step : Option Nat := none
  trials : Option Nat := none
  application : Option String := none
deriving DecidableEq, Repr

/-- The search section with the options that are given put over it. -/
def SearchOptions.apply (o : SearchOptions) (s : Config.SearchSection) : Config.SearchSection :=
  { s with
    band := ⟨o.low.getD s.band.low, o.high.getD s.band.high⟩
    step := o.step.getD s.step
    trials := o.trials.getD s.trials
    application := o.application.getD s.application }

/-- The options of a stress run. -/
structure TestbenchOptions where
  runs : Option Nat := none
  application : Option String := none
  /-- The file the first failing output is written to. -/
  output : Option String := none
deriving DecidableEq, Repr

/-- The stress section with the options that are given put over it. -/
def TestbenchOptions.apply (o : TestbenchOptions) (s : Config.TestbenchSection) :
    Config.TestbenchSection :=
  { s with
    runs := o.runs.getD s.runs
    application := o.application.getD s.application
    failureOutput := o.output.getD s.failureOutput }

/-- What to do. -/
inductive Command where
  | search (options : SearchOptions)
  | testbench (options : TestbenchOptions)
  /-- Check the trace in a file. -/
  | validate (file : String)
deriving DecidableEq, Repr

/-- The configuration with the options of a command put over it. -/
def Command.apply (c : Command) (config : Config) : Config :=
  match c with
  | search o => { config with search := o.apply config.search }
  | testbench o => { config with testbench := o.apply config.testbench }
  | validate _ => config

/-- A command, and how it is to be carried out. -/
structure Invocation where
  /-- Results and errors are written as documents. -/
  json : Bool
  /-- The configuration file, if it is not the usual one. -/
  config : Option String
  command : Command
deriving DecidableEq, Repr

/-- Why a command line is no invocation. -/
inductive UsageError where
  | helpWanted
  | versionWanted
  /-- Nothing at all was given. -/
  | noArguments
  | noSubcommand
  | unknownSubcommand
  | unknownArgument
  /-- A positional argument is missing. -/
  | missingArgument
  /-- An option lacks its value, or has an empty one where that cannot be. -/
  | missingValue
  /-- A value is no number that the option can take. -/
  | notANumber
  /-- A value is given to a switch that takes none. -/
  | surplusValue
  /-- A switch or option is given twice. -/
  | repeated
deriving DecidableEq, Repr

/-- Help and version are shown on request; all else is misuse. -/
def UsageError.exitStatus : UsageError → Nat
  | helpWanted | versionWanted => 0
  | _ => 2

end SafeClock.CommandLine
