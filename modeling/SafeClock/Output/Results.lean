import SafeClock.Output.Json
import SafeClock.Output.Style
import SafeClock.Output.Table
import SafeClock.Output.Text
import SafeClock.Output.Time
import SafeClock.Config.Encode
import SafeClock.Interrupt.Trace
import SafeClock.Search.Session
import SafeClock.Testbench

/-!
# What a command shows

Each command has a result that can be shown in two ways: as text for the operator, and as a
document. `Result` brings the three kinds of result and the failure of a command together.
-/

set_option autoImplicit false

namespace SafeClock.Output

/-- The style of a heading of a given colour. -/
def heading (colour : Colour) : Style := ⟨some colour, some .bold⟩

/-! ## The result of a search -/

/-- When a search started and ended, and how long it took, as they are shown. -/
structure Timing where
  started : String
  finished : String
  elapsed : String
deriving DecidableEq, Repr

/-- The timing between two points in time. -/
def Timing.between (start finish : Instant) : Timing where
  started := Time.stamp start
  finished := Time.stamp finish
  elapsed := Time.seconds (Time.milliseconds start finish) ++ "s"

/-- The result of a search. -/
structure SearchResult where
  success : Bool
  /-- The prior frequency is declared again. -/
  restored : Bool
  warning : Option String
  report : Search.Report
  timing : Timing
deriving DecidableEq, Repr

namespace SearchResult

/-- What the operator is warned of after a search. -/
def warningOf (r : Search.Report) : Option String :=
  match r.termination with
  | .floorReached =>
    some ("No candidate passed every trial; " ++ hertz r.highestSafe ++
      " is the range floor, not a confirmed safe frequency")
  | .aborted => some ("Search aborted; last candidate was " ++ hertz r.highestSafe)
  | .converged | .ceilingReached => none

/-- The result that shows a report. A search is a success if it came to an end of its own and the
prior frequency is declared again. -/
def ofReport (timing : Timing) (restored : Bool) (r : Search.Report) : SearchResult where
  success := restored && r.termination != .aborted
  restored := restored
  warning := warningOf r
  report := r
  timing := timing

/-- The first line of the result. -/
def headline (terminal : Terminal) : Search.Termination → String
  | .converged => (heading .green).apply terminal "Frequency search converged"
  | .ceilingReached =>
    (heading .green).apply terminal "Every frequency up to the ceiling passed"
  | .floorReached =>
    (heading .yellow).apply terminal "Frequency search reached the range floor"
  | .aborted => (heading .red).apply terminal "Frequency search aborted"

/-- What became of one candidate. -/
def verdict (p : Probe) : String :=
  if p.isClean then "pass" else if p.isIntermittent then "intermittent" else "fail"

/-- The measured candidates, numbered from one. -/
def probeRows (probes : List Probe) : List (List String) :=
  probes.zipIdx.map fun (p, i) =>
    [toString (i + 1), hertz p.frequency, s!"{p.errors}/{p.total}", verdict p]

/-- The result as text. -/
def toText (terminal : Terminal) (s : SearchResult) : String :=
  let r := s.report
  let note :=
    if s.restored then Style.apply ⟨none, some .dim⟩ terminal "(restored)"
    else (heading .red).apply terminal "(NOT restored)"
  let summary :=
    [ headline terminal r.termination,
      "",
      "  Original frequency:        " ++ hertz r.prior ++ " " ++ note,
      "  Highest unsafe frequency:  " ++ hertz r.highestUnsafe,
      "  Highest safe frequency:    " ++ hertz r.highestSafe,
      "  Recommended frequency:     " ++
        (heading .cyan).apply terminal (hertz r.recommended),
      s!"  Iterations:                {r.iterations} (" ++ s.timing.elapsed ++ ")" ]
  let warning := match s.warning with
    | some text => ["", (heading .yellow).apply terminal "warning:" ++ " " ++ text]
    | none => []
  let table :=
    if r.probes.isEmpty then []
    else "" :: Table.render ["#", "Frequency", "Errors", "Result"] (probeRows r.probes)
  "\n".intercalate (summary ++ warning ++ table)

/-- The name of a termination in a document. -/
def terminationName : Search.Termination → String
  | .converged => "converged"
  | .ceilingReached => "ceiling_reached"
  | .floorReached => "floor_reached"
  | .aborted => "aborted"

/-- A measured candidate as a document. -/
def probeValue (p : Probe) : Value :=
  .record [("frequency", .nat p.frequency), ("errors", .nat p.errors), ("total", .nat p.total)]

/-- The result as a document; a warning that is not given is left out. -/
def toValue (s : SearchResult) : Value :=
  let r := s.report
  .record <|
    [("success", .bool s.success), ("restored", .bool s.restored)] ++
    (s.warning.map fun text => ("warning", .text text)).toList ++
    [ ("original_frequency", .nat r.prior),
      ("highest_safe", .nat r.highestSafe),
      ("highest_unsafe", .nat r.highestUnsafe),
      ("recommended", .nat r.recommended),
      ("termination", .text (terminationName r.termination)),
      ("iterations", .nat r.iterations),
      ("parameters", r.parameters.toValue),
      ("probes", .list (r.probes.map probeValue)),
      ("started_at", .text s.timing.started),
      ("finished_at", .text s.timing.finished) ]

end SearchResult

/-! ## The result of a stress run -/

namespace TestbenchResult

/-- The result of a stress run as text. -/
def toText (terminal : Terminal) (r : Testbench.Report) : String :=
  match r.failedRun with
  | some number =>
    let place := match r.outputPath with
      | some path => "; output written to " ++ path
      | none => ""
    (heading .red).apply terminal "Test failed:" ++
      s!" run {number}/{r.runsRequested} of " ++ r.application ++ " failed" ++ place
  | none =>
    (heading .green).apply terminal "All tests passed:" ++
      s!" {r.runsCompleted}/{r.runsRequested} runs of " ++ r.application ++ " passed"

/-- The result of a stress run as a document. -/
def toValue (r : Testbench.Report) : Value :=
  .record
    [ ("success", .bool r.passed),
      ("application", .text r.application),
      ("runs_requested", .nat r.runsRequested),
      ("runs_completed", .nat r.runsCompleted),
      ("failed_run", (r.failedRun.map Value.nat).getD .null),
      ("output_path", (r.outputPath.map Value.text).getD .null) ]

end TestbenchResult

/-! ## The verdict on a trace -/

/-- The verdict on the trace in a file. -/
structure TraceResult where
  file : String
  events : Nat
  verdict : Verdict
deriving DecidableEq, Repr

namespace TraceResult

/-- The verdict as text; long labels are cut. -/
def toText (terminal : Terminal) (r : TraceResult) : String :=
  match r.verdict with
  | .correct =>
    (heading .green).apply terminal "Correct:" ++
      s!" {r.events} interrupt event(s) in " ++ r.file
  | .violation previous next =>
    (heading .red).apply terminal "Violation:" ++ " " ++ truncate 40 next ++
      " may not follow " ++ truncate 40 previous ++ s!" ({r.events} event(s) in " ++ r.file ++ ")"

/-- The verdict as a document. -/
def toValue (r : TraceResult) : Value :=
  .record <|
    [("file", .text r.file), ("events", .nat r.events)] ++
    match r.verdict with
    | .correct => [("outcome", .text "correct")]
    | .violation previous next =>
      [("outcome", .text "violation"), ("previous", .text previous), ("next", .text next)]

end TraceResult

end SafeClock.Output
