import SafeClock.Frequency
import SafeClock.Interrupt.Table
import SafeClock.System.Path

/-!
# The configuration

A configuration has six sections. The defaults written here are those of the layer below all
documents. Four of its fields are paths, which are texts in a configuration that was read from
documents; `Config π` is a configuration with paths of another kind in their place.
-/

set_option autoImplicit false

namespace SafeClock

namespace Config

/-- What to search for, and with which workload. -/
structure SearchSection where
  band : Band := ⟨100, 10000⟩
  step : Nat := 50
  trials : Nat := 3
  application : String := "ea_test"
  /-- Measurements after which a search is given up. -/
  maxIterations : Nat := 1000
deriving DecidableEq, Repr

/-- Where the platform declares its frequency. -/
structure PlatformSection (π : Type := String) [PathKind π] where
  /-- The path of the header. -/
  header : π := PathKind.ofText "include/machine/riscv/sifive_u/sifive_u_traits.h"
  /-- How the line of the declaration starts. -/
  lead : String := "    static const int FREQUENCY"
deriving DecidableEq, Repr

/-- Where the trace of a run is taken from. -/
inductive TraceSource where
  /-- A file that the run writes. -/
  | logFile
  /-- What the run prints. -/
  | standardOutput
deriving DecidableEq, Repr

/-- How the tool that builds and runs a workload is called. -/
structure ToolchainSection (π : Type := String) [PathKind π] where
  program : String := "make"
  /-- The tool is called once with each of these, in order, to clean the workspace. -/
  cleanTargets : List String := ["clean", "veryclean"]
  /-- The arguments of a run; the placeholder stands for the workload. -/
  runArguments : List String := ["APPLICATION=\x7bapplication\x7d", "run"]
  workingDirectory : π := PathKind.ofText "."
  traceSource : TraceSource := .logFile
  /-- The file a run leaves its trace in, under the working directory. -/
  logPath : String := "img/\x7bapplication\x7d.log"
deriving DecidableEq, Repr

/-- How events are found in a trace, and which may follow which. -/
structure TraceSection where
  /-- How a line that records a dispatch starts. -/
  lead : String := "riscv_cpu_do_interrupt"
  /-- The timer chain, if none is given. -/
  transitions : Option TransitionTable := none
deriving DecidableEq, Repr

/-- The table that traces are checked against. -/
def TraceSection.table (t : TraceSection) : TransitionTable :=
  t.transitions.getD TransitionTable.timerChain

/-- A stress run: one workload, run over and over. -/
structure TestbenchSection (π : Type := String) [PathKind π] where
  runs : Nat := 100
  application : String := "multicore"
  /-- Text that only a failing run prints. -/
  failureMarker : String := "IC:"
  /-- Text that clears a run of its failure marker. -/
  successMarker : String := "Hello multicore world!"
  /-- The file that the first failing output is written to. -/
  failureOutput : π := PathKind.ofText "output.txt"
deriving DecidableEq, Repr

/-- How log records are written to the console. -/
inductive LogFormat where
  | json
  | pretty
deriving DecidableEq, Repr

/-- When a new log file is begun. -/
inductive Rotation where
  | daily
  | hourly
  | never
deriving DecidableEq, Repr

/-- What is logged, and where. -/
structure LoggingSection (π : Type := String) [PathKind π] where
  level : String := "info"
  format : LogFormat := .pretty
  /-- The directory of log files; without one, no file is written. -/
  directory : Option π := none
  /-- Whether records go to the standard error stream as well. -/
  console : Bool := true
  rotation : Rotation := .never
deriving DecidableEq, Repr

end Config

/-- A whole configuration. -/
structure Config (π : Type := String) [PathKind π] where
  search : Config.SearchSection := {}
  platform : Config.PlatformSection π := {}
  toolchain : Config.ToolchainSection π := {}
  trace : Config.TraceSection := {}
  testbench : Config.TestbenchSection π := {}
  logging : Config.LoggingSection π := {}
deriving DecidableEq, Repr

/-- The parameters of the search that a configuration describes. -/
def Config.SearchSection.parameters (s : Config.SearchSection) : Parameters :=
  ⟨s.band, s.step, s.trials⟩

end SafeClock
