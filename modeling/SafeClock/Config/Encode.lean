import SafeClock.Config.Basic
import SafeClock.Value

/-!
# Configurations as documents

Every field of a configuration is written, with one exception: the transition table is left out
when the configuration gives none, so that a document put over this one never mixes with the timer
chain. A log directory that is not set is written as null.
-/

set_option autoImplicit false

namespace SafeClock

/-- The band as a document. -/
def Band.toValue (b : Band) : Value :=
  .record [("low", .nat b.low), ("high", .nat b.high)]

/-- The parameters as a document. -/
def Parameters.toValue (p : Parameters) : Value :=
  .record [("range", p.band.toValue), ("step", .nat p.step), ("measurements", .nat p.trials)]

/-- A list of texts as a document. -/
def Value.ofTexts (texts : List String) : Value :=
  .list (texts.map .text)

/-- The table as a document: each event with the list of its successors. -/
def TransitionTable.toValue (t : TransitionTable) : Value :=
  .record (t.entries.map fun (e, next) => (e, .ofTexts next.toList))

namespace Config

def SearchSection.toValue (s : SearchSection) : Value :=
  .record
    [ ("range", s.band.toValue),
      ("step", .nat s.step),
      ("measurements", .nat s.trials),
      ("application", .text s.application),
      ("max_iterations", .nat s.maxIterations) ]

def PlatformSection.toValue (s : PlatformSection) : Value :=
  .record [("traits_path", .text s.header), ("declaration_prefix", .text s.lead)]

/-- The name of a trace source. -/
def TraceSource.name : TraceSource → String
  | logFile => "log_file"
  | standardOutput => "stdout"

def ToolchainSection.toValue (s : ToolchainSection) : Value :=
  .record
    [ ("program", .text s.program),
      ("clean_targets", .ofTexts s.cleanTargets),
      ("run_args", .ofTexts s.runArguments),
      ("working_dir", .text s.workingDirectory),
      ("trace_source", .text s.traceSource.name),
      ("log_path", .text s.logPath) ]

def TraceSection.toValue (s : TraceSection) : Value :=
  .record (("dispatch_prefix", .text s.lead) ::
    (s.transitions.map fun t => ("transitions", t.toValue)).toList)

def TestbenchSection.toValue (s : TestbenchSection) : Value :=
  .record
    [ ("runs", .nat s.runs),
      ("application", .text s.application),
      ("failure_marker", .text s.failureMarker),
      ("success_marker", .text s.successMarker),
      ("failure_output", .text s.failureOutput) ]

/-- The name of a log format. -/
def LogFormat.name : LogFormat → String
  | json => "json"
  | pretty => "pretty"

/-- The name of a rotation. -/
def Rotation.name : Rotation → String
  | daily => "daily"
  | hourly => "hourly"
  | never => "never"

def LoggingSection.toValue (s : LoggingSection) : Value :=
  .record
    [ ("level", .text s.level),
      ("format", .text s.format.name),
      ("log_dir", (s.directory.map Value.text).getD .null),
      ("enable_stdout", .bool s.console),
      ("rotation", .text s.rotation.name) ]

/-- The configuration as a document. -/
def toValue (c : Config) : Value :=
  .record
    [ ("search", c.search.toValue),
      ("platform", c.platform.toValue),
      ("toolchain", c.toolchain.toValue),
      ("trace", c.trace.toValue),
      ("testbench", c.testbench.toValue),
      ("logging", c.logging.toValue) ]

end Config

end SafeClock
