import SafeClock.Config.Load
import SafeClock.Output.Results

/-!
# What a command comes to

An `Outcome` is all there is to say of a command that was carried out: that it was refused, or what
its search, its stress run or its check came to. What is shown of it and what it fails with are read
off the outcome; a command may well show a result and fail.

> **no false success**: the exit status is zero just when there is no failure
> (`exitStatus_eq_zero_iff`).
-/

set_option autoImplicit false

namespace SafeClock.CommandLine

open Output (Terminal Timing SearchResult TraceResult)

/-- Why a command is not begun. -/
inductive Refusal where
  | configuration (cause : Config.LoadError)
  | searchParameters (cause : ConfigError)
  | testbenchParameters (cause : ConfigError)
deriving DecidableEq, Repr

/-- What a command comes to. -/
inductive Outcome where
  | refused (why : Refusal)
  | search (result : Except Search.SessionError Search.Report)
  | testbench (result : Except Testbench.Failure Testbench.Report)
  /-- The trace in a file cannot be read. -/
  | unreadable (file : String) (cause : OsError)
  | checked (result : TraceResult)

/-- What is shown of an outcome. -/
inductive Shown where
  | search (restored : Bool) (report : Search.Report)
  | testbench (report : Testbench.Report)
  | trace (result : TraceResult)

/-- What a command fails with: a message, and what lies behind it. -/
structure Failure where
  message : String
  causes : List String := []
deriving DecidableEq, Repr

namespace Refusal

/-- What a refused command fails with. -/
def failure : Refusal → Failure
  | configuration cause => ⟨"Failed to load configuration", [cause.message]⟩
  | searchParameters cause => ⟨"Invalid search parameters", [cause.message]⟩
  | testbenchParameters cause => ⟨"Invalid testbench parameters", [cause.message]⟩

end Refusal

namespace Outcome

/-- What is shown of a search: its report, if it has one. -/
def shownOfSearch : Except Search.SessionError Search.Report → Option Shown
  | .ok report => some (.search true report)
  | .error (.restore _ _ report) => some (.search false report)
  | .error e => e.report?.map (.search true)

/-- What is shown of an outcome, if anything is. -/
def shown? : Outcome → Option Shown
  | refused _ => none
  | search result => shownOfSearch result
  | testbench (.ok report) => some (.testbench report)
  | testbench (.error _) => none
  | unreadable _ _ => none
  | checked result => some (.trace result)

/-- What a search fails with. One that leaves the platform changed says what to declare by hand. -/
def failureOfSearch : Except Search.SessionError Search.Report → Option Failure
  | .ok _ => none
  | .error (.restore prior cause report) =>
    some ⟨"Platform left misconfigured; restore " ++ Output.hertz prior ++ " by hand",
      (Search.SessionError.restore prior cause report).chain⟩
  | .error e => some ⟨"Frequency search failed", e.chain⟩

/-- What an outcome fails with, if it fails. -/
def failure? : Outcome → Option Failure
  | refused why => some why.failure
  | search result => failureOfSearch result
  | testbench (.ok report) =>
    report.failedRun.map fun n => ⟨s!"Interrupt controller failure detected on run {n}", []⟩
  | testbench (.error e) =>
    match e.chain with
    | message :: causes => some ⟨message, causes⟩
    | [] => none
  | unreadable file cause => some ⟨"Failed to read trace file " ++ file, [cause.message]⟩
  | checked result =>
    if result.verdict.isViolation then some ⟨"Interrupt ordering violation", []⟩ else none

/-- The exit status of a command. -/
def exitStatus (o : Outcome) : Nat := if o.failure?.isSome then 1 else 0

theorem exitStatus_eq_zero_iff (o : Outcome) : o.exitStatus = 0 ↔ o.failure? = none := by
  unfold exitStatus
  cases o.failure? <;> simp

end Outcome

namespace Shown

/-- What is shown, as text. -/
def toText (terminal : Terminal) (timing : Timing) : Shown → String
  | search restored report => (SearchResult.ofReport timing restored report).toText terminal
  | testbench report => Output.TestbenchResult.toText terminal report
  | trace result => result.toText terminal

/-- What is shown, as a document. -/
def toValue (timing : Timing) : Shown → Value
  | search restored report => (SearchResult.ofReport timing restored report).toValue
  | testbench report => Output.TestbenchResult.toValue report
  | trace result => result.toValue

end Shown

namespace Failure

/-- A failure as text: the message, and a line for each cause. -/
def toText (terminal : Terminal) (f : Failure) : String :=
  String.join (((Output.heading .red).apply terminal "error:" ++ " " ++ f.message ++ "\n") ::
    f.causes.map fun cause =>
      "  " ++ Output.Style.apply ⟨none, some .dim⟩ terminal "caused by:" ++ " " ++ cause ++ "\n")

/-- A failure as a document. -/
def toValue (f : Failure) : Value :=
  .record
    [ ("success", .bool false), ("error", .text f.message),
      ("causes", .list (f.causes.map .text)) ]

end Failure

namespace Outcome

/-- The text on the standard output: what is shown, and in documents also the failure. -/
def output (json : Bool) (terminal : Terminal) (timing : Timing) (o : Outcome) : String :=
  let result := match o.shown? with
    | some s => (if json then Output.Json.render (s.toValue timing) else s.toText terminal timing)
        ++ "\n"
    | none => ""
  let failure := match o.failure? with
    | some f => if json then Output.Json.render f.toValue ++ "\n" else ""
    | none => ""
  result ++ failure

/-- The text on the standard error stream: the failure, unless it is a document. -/
def complaints (json : Bool) (terminal : Terminal) (o : Outcome) : String :=
  match o.failure? with
  | some f => if json then "" else f.toText terminal
  | none => ""

end Outcome

end SafeClock.CommandLine
