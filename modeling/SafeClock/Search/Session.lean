import SafeClock.Bench
import SafeClock.Interrupt.Trace
import SafeClock.Search.Report

/-!
# A search at a bench

`Session.run` reads the declared frequency, measures candidate after candidate until the search
comes to an end, and declares the frequency it read again, whatever happened in between. To measure
a candidate is to declare it and to run the trials, each of which cleans the workspace, runs the
workload and checks the trace.

> **the bench is left as found**: but for parameters that make no sense and a first read that
> fails, the last request of a session declares the prior frequency.

The three parts of a session are the measurement of one candidate (`measure`), the loop over
candidates (`loop`), which is bounded by a number of measurements, and the frame around the loop
(`run`).
-/

set_option autoImplicit false

namespace SafeClock.Search

/-- Everything a search at a bench needs to know. -/
structure Session where
  parameters : Parameters
  /-- How a line that records a dispatch starts. -/
  lead : String
  table : TransitionTable
  /-- The workload that is run. -/
  application : String
  /-- Measurements after which a search is given up. -/
  maxIterations : Nat
deriving DecidableEq, Repr

/-- Why a search has no result to return. -/
inductive SessionError where
  /-- The parameters make no sense; nothing was asked of the bench. -/
  | invalidParameters (cause : ParameterError)
  /-- The declared frequency could not be read; nothing was changed. -/
  | setup (cause : ToolingError)
  /-- A tool failed at a candidate; the prior frequency is declared again. -/
  | aborted (frequency : Nat) (cause : ToolingError) (report : Report)
  /-- The prior frequency could not be declared again. -/
  | restore (prior : Nat) (cause : ToolingError) (report : Report)
  /-- The search did not come to an end within the measurements allowed. -/
  | iterationLimit (limit : Nat)
deriving DecidableEq, Repr

namespace SessionError

/-- The text shown for a session error. -/
def message : SessionError → String
  | invalidParameters cause => "Invalid search parameters: " ++ cause.message
  | setup cause => "Failed to read the configured platform frequency: " ++ cause.message
  | aborted hz cause _ => s!"Search aborted at {hz} Hz: " ++ cause.message
  | restore hz cause _ => s!"Failed to restore original frequency {hz} Hz: " ++ cause.message
  | iterationLimit limit => s!"Search did not terminate within {limit} iterations"

/-- The texts of an error and of what lies behind it, outermost first. -/
def chain (e : SessionError) : List String :=
  e.message :: match e with
    | invalidParameters cause => [cause.message]
    | setup cause => cause.chain
    | aborted _ cause _ => cause.chain
    | restore _ cause _ => cause.chain
    | iterationLimit _ => []

/-- The report an error comes with, if it comes with one. -/
def report? : SessionError → Option Report
  | aborted _ _ r => some r
  | restore _ _ r => some r
  | invalidParameters _ => none
  | setup _ => none
  | iterationLimit _ => none

end SessionError

/-- How the loop over the candidates ended. -/
inductive Ending where
  /-- A measurement ended the search. -/
  | finished (state : State) (termination : Termination)
  /-- A tool failed while the state's candidate was measured. -/
  | interrupted (state : State) (cause : ToolingError)
  /-- The state's candidate is one too many. -/
  | outOfIterations (state : State)
deriving DecidableEq, Repr

namespace Session

variable {σ : Type}

/-- One trial: clean, run, check. Answers the verdict on the trace. -/
def trial (c : Session) (b : Bench σ) (l : Ledger σ) : Except ToolingError Verdict × Ledger σ :=
  match b.ask .clean l with
  | (.error e, l) => (.error e, l)
  | (.ok _, l) =>
    match b.ask (.run c.application) l with
    | (.error e, l) => (.error e, l)
    | (.ok trace, l) =>
      match (Trace.check c.lead c.table trace).2 with
      | .correct => (.ok .correct, l.log .debug "Trace valid")
      | .violation previous next =>
        (.ok (.violation previous next), l.log .warn "Interrupt ordering violation detected")

/-- The trials that are left at one candidate. Answers the number of violations, counted on from
`errors`. -/
def trials (c : Session) (b : Bench σ) :
    (left : Nat) → (errors : Nat) → Ledger σ → Except ToolingError Nat × Ledger σ
  | 0, errors, l => (.ok errors, l)
  | left + 1, errors, l =>
    match c.trial b (l.log .debug "Running measurement") with
    | (.error e, l) => (.error e, l)
    | (.ok verdict, l) =>
      c.trials b left (if verdict.isViolation then errors + 1 else errors) l

/-- Declares a candidate and runs all its trials. -/
def measure (c : Session) (b : Bench σ) (hz : Nat) (l : Ledger σ) :
    Except ToolingError Probe × Ledger σ :=
  match b.ask (.setFrequency hz) l with
  | (.error e, l) => (.error e, l)
  | (.ok _, l) =>
    match c.trials b c.parameters.trials 0 (l.log .debug "Frequency applied to platform") with
    | (.error e, l) => (.error e, l)
    | (.ok errors, l) => (.ok ⟨hz, errors, c.parameters.trials⟩, l)

/-- Measures and advances until the search ends, a tool fails, or `left` measurements are made.
`probes` holds the measurements so far, the last one first. -/
def loop (c : Session) (b : Bench σ) :
    (left : Nat) → State → (probes : List Probe) → Ledger σ → (Ending × List Probe) × Ledger σ
  | 0, s, probes, l => ((.outOfIterations s, probes), l.log .warn "Iteration limit reached")
  | left + 1, s, probes, l =>
    match c.measure b s.current (l.log .info "Profiling frequency") with
    | (.error e, l) =>
      ((.interrupted s e, probes), l.log .error "Measurement aborted by tooling failure")
    | (.ok probe, l) =>
      let l := l.log .info "Frequency tested"
      let transition := s.advance c.parameters probe
      match Termination.ofTransition? c.parameters transition with
      | some termination => ((.finished transition.state termination, probe :: probes), l)
      | none => c.loop b left transition.state (probe :: probes) l

/-- The result of a session whose loop has ended and whose prior frequency was declared again,
or could not be. A frequency that could not be declared outweighs all else. -/
def conclude (c : Session) (prior : Nat) (ending : Ending) (probes : List Probe)
    (restored : Except ToolingError Unit) (l : Ledger σ) :
    Except SessionError Report × Ledger σ :=
  let report (s : State) (t : Termination) := Report.ofState s t c.parameters prior probes
  match ending, restored with
  | .finished s t, .ok _ => (.ok (report s t), l.log .info "Frequency search finished")
  | .finished s t, .error e => (.error (.restore prior e (report s t)), l)
  | .interrupted s cause, .ok _ =>
    (.error (.aborted s.current cause (report s .aborted)), l)
  | .interrupted s _, .error e =>
    (.error (.restore prior e (report s .aborted)),
      l.log .error "Search had already aborted before restore failed")
  | .outOfIterations _, .ok _ => (.error (.iterationLimit c.maxIterations), l)
  | .outOfIterations s, .error e =>
    (.error (.restore prior e (report s .aborted)),
      l.log .error "Iteration limit reached before restore failed")

/-- Runs a search at a bench. -/
def run (c : Session) (b : Bench σ) (l : Ledger σ) : Except SessionError Report × Ledger σ :=
  match c.parameters.check with
  | .error e => (.error (.invalidParameters e), l)
  | .ok _ =>
    match b.ask .readFrequency l with
    | (.error e, l) => (.error (.setup e), l)
    | (.ok prior, l) =>
      let ((ending, probes), l) := c.loop b c.maxIterations (State.initial c.parameters) []
        (l.log .info "Captured original platform frequency")
      match b.ask (.setFrequency prior) l with
      | (.ok _, l) =>
        c.conclude prior ending probes.reverse (.ok ())
          (l.log .info "Original frequency restored")
      | (.error e, l) =>
        c.conclude prior ending probes.reverse (.error e)
          (l.log .error "Failed to restore original frequency")

end Session

end SafeClock.Search
