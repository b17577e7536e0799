import SafeClock.Bench
import SafeClock.Config.Basic
import SafeClock.Text.Decimal

/-!
# Stress runs

A stress run cleans the workspace once and then runs one workload over and over, until a run fails
or all runs are done. A run fails if its output holds the failure marker and not the success
marker; the output of the failing run is kept in a file.

> **it stops at the first failure**: no run follows one that fails, and nothing but the output of
> that run is ever kept.
-/

set_option autoImplicit false

namespace SafeClock.Testbench

open Config (TestbenchSection)

/-- Whether `part` occurs in `whole`; nothing occurs everywhere. -/
def occursIn (part whole : List Char) : Bool :=
  match whole with
  | [] => part.isEmpty
  | c :: rest => part.isPrefixOf (c :: rest) || occursIn part rest

/-- Whether the output of a run says that it failed. -/
def isFailure (c : TestbenchSection) (output : String) : Bool :=
  occursIn c.failureMarker.toList output.toList &&
    !occursIn c.successMarker.toList output.toList

/-- What a stress run came to. -/
structure Report where
  application : String
  runsRequested : Nat
  /-- Runs that came to an end, a failing one included. -/
  runsCompleted : Nat
  /-- The failing run, counted from one. -/
  failedRun : Option Nat
  /-- Where the failing output was put. -/
  outputPath : Option String
deriving DecidableEq, Repr

/-- No run failed. -/
def Report.passed (r : Report) : Bool := r.failedRun.isNone

/-- Why a stress run has no report. -/
inductive Failure where
  | clean (cause : ToolingError)
  | run (number total : Nat) (cause : ToolingError)
  | save (path : String) (cause : OsError)
deriving DecidableEq, Repr

namespace Failure

/-- The text shown for a failure. -/
def message : Failure → String
  | clean _ => "Failed to clean build workspace before testbench"
  | run number total _ => s!"Run {number}/{total} failed to execute"
  | save path _ => "Failed to write failing output to " ++ path

/-- The texts of a failure and of what lies behind it, outermost first. -/
def chain (f : Failure) : List String :=
  f.message :: match f with
    | clean cause => cause.chain
    | run _ _ cause => cause.chain
    | save _ cause => [cause.message]

end Failure

variable {σ : Type}

/-- A way to keep a text in a file of the bench's world. -/
abbrev Save (σ : Type) := (path text : String) → σ → Except OsError Unit × σ

/-- The report of a stress run that stops after `completed` runs. -/
def reportAt (c : TestbenchSection) (completed : Nat) (failed : Bool) : Report where
  application := c.application
  runsRequested := c.runs
  runsCompleted := completed
  failedRun := if failed then some completed else none
  outputPath := if failed then some c.failureOutput else none

/-- The runs that are left, after `done` of them. -/
def runs (c : TestbenchSection) (b : Bench σ) (save : Save σ) :
    (left done : Nat) → Ledger σ → Except Failure Report × Ledger σ
  | 0, done, l => (.ok (reportAt c done false), l)
  | left + 1, done, l =>
    match b.ask (.run c.application) (l.log .info "Running test") with
    | (.error e, l) => (.error (.run (done + 1) c.runs e), l)
    | (.ok output, l) =>
      if isFailure c output then
        let l := l.log .warn "Test failed"
        match save c.failureOutput output l.bench with
        | (.error e, s) => (.error (.save c.failureOutput e), { l with bench := s })
        | (.ok _, s) => (.ok (reportAt c (done + 1) true), { l with bench := s })
      else runs c b save left (done + 1) (l.log .debug "Test passed")

/-- Runs a stress run at a bench. -/
def run (c : TestbenchSection) (b : Bench σ) (save : Save σ) (l : Ledger σ) :
    Except Failure Report × Ledger σ :=
  match b.ask .clean l with
  | (.error e, l) => (.error (.clean e), l)
  | (.ok _, l) => runs c b save c.runs 0 l

end SafeClock.Testbench
