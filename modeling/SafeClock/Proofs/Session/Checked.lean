import SafeClock.Proofs.Search.Checked
import SafeClock.Proofs.Session.Replay

/-!
# A session in words

`Session.run?` is the session with everything it counts and computes checked: the violations at a
candidate, each step of the search, and the grid of the report. Its loop has no count of its own for
the measurements that are left, as `Session.loop` has. It goes on as long as the count of the state
is below the number that is allowed.

> **no session faults**: if the ceiling, the trials and the measurements allowed are words, `run?`
> has a value at every bench, and it is that of `run`.

The two counts are kept in their words by the numbers they count up to, and the frequencies by the
ceiling of the band.
-/

set_option autoImplicit false

namespace SafeClock.Search

/-- A report with its grid point in words. -/
def Report.ofState? (s : State) (termination : Termination) (p : Parameters) (prior : Nat)
    (probes : List Probe) : Option Report := do
  let recommended ← p.snap? s.current
  return { ofState s termination p prior probes with recommended := recommended }

theorem Report.ofState?_eq_some {s : State} {p : Parameters} (hlow : p.band.low ≤ s.current)
    (hs : s.Fits) (termination : Termination) (prior : Nat) (probes : List Probe) :
    ofState? s termination p prior probes = some (ofState s termination p prior probes) := by
  rw [ofState?, Parameters.snap?_eq_some (Nat.lt_of_le_of_lt hlow hs.current_lt) hs.current_lt]
  rfl

namespace Session

variable {σ : Type} {c : Session} {b : Bench σ} {l : Ledger σ}

/-- The count of the violations after a trial, in words. -/
def count? (errors : Nat) (verdict : Verdict) : Option Nat :=
  if verdict.isViolation then word? countLimit (errors + 1) else some errors

/-- `trials`, in words. -/
def trials? (c : Session) (b : Bench σ) :
    (left : Nat) → (errors : Nat) → Ledger σ → Option (Except ToolingError Nat × Ledger σ)
  | 0, errors, l => some (.ok errors, l)
  | left + 1, errors, l =>
    match c.trial b (l.log .debug "Running measurement") with
    | (.error e, l) => some (.error e, l)
    | (.ok verdict, l) => do
      let errors ← count? errors verdict
      c.trials? b left errors l

/-- `measure`, in words. -/
def measure? (c : Session) (b : Bench σ) (hz : Nat) (l : Ledger σ) :
    Option (Except ToolingError Probe × Ledger σ) :=
  match b.ask (.setFrequency hz) l with
  | (.error e, l) => some (.error e, l)
  | (.ok _, l) => do
    match ← c.trials? b c.parameters.trials 0 (l.log .debug "Frequency applied to platform") with
    | (.error e, l) => return (.error e, l)
    | (.ok errors, l) => return (.ok ⟨hz, errors, c.parameters.trials⟩, l)

/-- `loop`, in words, up to the number of measurements that is allowed. -/
def loop? (c : Session) (b : Bench σ) (s : State) (probes : List Probe) (l : Ledger σ) :
    Option ((Ending × List Probe) × Ledger σ) :=
  if c.maxIterations ≤ s.iteration then
    some ((.outOfIterations s, probes), l.log .warn "Iteration limit reached")
  else
    match c.measure? b s.current (l.log .info "Profiling frequency") with
    | none => none
    | some (.error e, l) =>
      some ((.interrupted s e, probes), l.log .error "Measurement aborted by tooling failure")
    | some (.ok probe, l) =>
      match _ : s.advance? c.parameters probe with
      | none => none
      | some transition =>
        let l := l.log .info "Frequency tested"
        match Termination.ofTransition? c.parameters transition with
        | some termination => some ((.finished transition.state termination, probe :: probes), l)
        | none => c.loop? b transition.state (probe :: probes) l
termination_by c.maxIterations - s.iteration
decreasing_by
  have hstep : s.advance? c.parameters probe = some transition := ‹_›
  have hcount := (State.move_of_advance (State.advance?_eq_some_iff.mp hstep).2).iteration_eq
  omega

/-- `conclude`, in words. -/
def conclude? (c : Session) (prior : Nat) (ending : Ending) (probes : List Probe)
    (restored : Except ToolingError Unit) (l : Ledger σ) :
    Option (Except SessionError Report × Ledger σ) :=
  let report? (s : State) (t : Termination) := Report.ofState? s t c.parameters prior probes
  match ending, restored with
  | .finished s t, .ok _ => do
    let report ← report? s t
    return (.ok report, l.log .info "Frequency search finished")
  | .finished s t, .error e => do
    let report ← report? s t
    return (.error (.restore prior e report), l)
  | .interrupted s cause, .ok _ => do
    let report ← report? s .aborted
    return (.error (.aborted s.current cause report), l)
  | .interrupted s _, .error e => do
    let report ← report? s .aborted
    return (.error (.restore prior e report),
      l.log .error "Search had already aborted before restore failed")
  | .outOfIterations _, .ok _ => some (.error (.iterationLimit c.maxIterations), l)
  | .outOfIterations s, .error e => do
    let report ← report? s .aborted
    return (.error (.restore prior e report),
      l.log .error "Iteration limit reached before restore failed")

/-- `run`, in words. -/
def run? (c : Session) (b : Bench σ) (l : Ledger σ) :
    Option (Except SessionError Report × Ledger σ) :=
  match c.parameters.check with
  | .error e => some (.error (.invalidParameters e), l)
  | .ok _ =>
    match b.ask .readFrequency l with
    | (.error e, l) => some (.error (.setup e), l)
    | (.ok prior, l) => do
      let ((ending, probes), l) ← c.loop? b (State.initial c.parameters) []
        (l.log .info "Captured original platform frequency")
      match b.ask (.setFrequency prior) l with
      | (.ok _, l) =>
        c.conclude? prior ending probes.reverse (.ok ())
          (l.log .info "Original frequency restored")
      | (.error e, l) =>
        c.conclude? prior ending probes.reverse (.error e)
          (l.log .error "Failed to restore original frequency")

/-! ## Measurements -/

theorem count?_eq_some {errors : Nat} (h : errors + 1 < countLimit) (verdict : Verdict) :
    count? errors verdict = some (if verdict.isViolation then errors + 1 else errors) := by
  unfold count?
  split
  · exact word?_eq_some_iff.mpr ⟨h, rfl⟩
  · rfl

/-- No more violations than trials are counted. -/
theorem trials?_eq_some {left errors : Nat} (hcount : errors + left < countLimit) :
    c.trials? b left errors l = some (c.trials b left errors l) := by
  induction left generalizing errors l with
  | zero => rfl
  | succ left ih =>
    unfold trials? trials
    cases c.trial b (l.log .debug "Running measurement") with
    | mk o l₁ =>
      cases o with
      | error e => rfl
      | ok verdict =>
        have hroom : errors + 1 < countLimit := by omega
        simp only [count?_eq_some hroom]
        exact ih (by split <;> omega)

theorem measure?_eq_some (htrials : c.parameters.trials < countLimit) (hz : Nat) (l : Ledger σ) :
    c.measure? b hz l = some (c.measure b hz l) := by
  have hcount : 0 + c.parameters.trials < countLimit := by rwa [Nat.zero_add]
  unfold measure? measure
  cases b.ask (.setFrequency hz) l with
  | mk o l₁ =>
    cases o with
    | error e => rfl
    | ok u =>
      simp only [trials?_eq_some hcount]
      cases c.trials b c.parameters.trials 0 (l₁.log .debug "Frequency applied to platform") with
      | mk o l₂ => cases o <;> rfl

theorem frequency_of_measure {hz : Nat} {q : Probe} {l' : Ledger σ}
    (h : c.measure b hz l = (.ok q, l')) : q.frequency = hz := by
  rcases measure_cases h with ⟨m, hm, hfreq, -, -⟩ | ⟨e, xs, he, -, -⟩
  · rw [Except.ok.inj hm]
    exact hfreq
  · exact absurd he (by simp)

/-! ## The loop -/

/-- What a session computes with fits its words. Its step may be any number. -/
structure FitsWords (c : Session) : Prop where
  high_lt : c.parameters.band.high < frequencyLimit
  trials_lt : c.parameters.trials < countLimit
  maxIterations_lt : c.maxIterations < countLimit

/-- **The loop has no fault**, and its guard is the count of the measurements that are left. -/
theorem loop?_eq_some (hw : c.FitsWords) {left : Nat} {s : State} (hs : s.Enclosed c.parameters)
    (hleft : s.iteration + left = c.maxIterations) (probes : List Probe) (l : Ledger σ) :
    c.loop? b s probes l = some (c.loop b left s probes l) := by
  -- The count of the state and the measurements that are left make up the number allowed all along.
  induction left generalizing s probes l with
  | zero =>
    rw [loop?, if_pos (by omega)]
    rfl
  | succ left ih =>
    have hgo : ¬c.maxIterations ≤ s.iteration := by omega
    have hcount : s.iteration + 1 < countLimit := by
      have := hw.maxIterations_lt
      omega
    rw [loop?, if_neg hgo, loop, measure?_eq_some hw.trials_lt]
    cases hmeasure : c.measure b s.current (l.log .info "Profiling frequency") with
    | mk o l₁ =>
      cases o with
      | error e => rfl
      | ok q =>
        have hq := hs.faultless hw.high_lt hcount (frequency_of_measure hmeasure)
        have hstep := State.advance?_eq_some_iff.mpr ⟨hq, rfl⟩
        simp only
        -- The recursion goes by the count, so the match keeps the equation for the step.
        split
        next hnone => exact absurd (hnone.symm.trans hstep) (by simp)
        next t ht =>
          obtain rfl := Option.some.inj (hstep.symm.trans ht)
          cases hend : Termination.ofTransition? c.parameters (s.advance c.parameters q) with
          | some w => rfl
          | none =>
            obtain ⟨s', ha⟩ := Termination.ofTransition?_eq_none_iff.mp hend
            have hiter := (State.move_of_advance ha).iteration_eq
            simp only [ha, Transition.state] at hiter ⊢
            exact ih (hs.next ha) (by omega) _ _

/-- Wherever a loop ends, it stands in the band, and in words. -/
theorem Explains.state_fits {left : Nat} {ms : List Measurement} {ending : Ending}
    {cut : List Exchange} (h : c.Explains (.initial c.parameters) left ms ending cut)
    (hp : c.parameters.Valid) (hhigh : c.parameters.band.high < frequencyLimit) :
    c.parameters.band.low ≤ ending.state.current ∧ ending.state.Fits := by
  have hinitial := State.enclosed_initial hp
  cases h with
  | finished _ hr _ =>
    obtain ⟨_, _, _, _, hl, _, ha, hterm⟩ := run_iff_leg.mp hr
    have hs := hl.enclosed hinitial
    exact ⟨(hs.final_mem ha hterm).1, hs.fits_next hhigh ha⟩
  | interrupted _ hl _ | outOfIterations _ hl =>
    have hs := hl.enclosed hinitial
    exact ⟨hs.low_le_current, hs.fits hhigh⟩

/-! ## The session -/

theorem conclude?_eq_some {ending : Ending}
    (hlow : c.parameters.band.low ≤ ending.state.current) (hfits : ending.state.Fits)
    (prior : Nat) (probes : List Probe) (restored : Except ToolingError Unit) (l : Ledger σ) :
    c.conclude? prior ending probes restored l =
      some (c.conclude prior ending probes restored l) := by
  have hreport := Report.ofState?_eq_some hlow hfits ending.termination prior probes
  cases ending <;> cases restored <;>
    simp only [Ending.state, Ending.termination] at hreport <;>
    simp [conclude?, conclude, hreport]

/-- **No session faults.** Whatever the bench answers, no sum, product or difference of the search
leaves its word, no step takes in the result of another candidate, the counts of the measurements
and of the violations have room, and so has the grid point of every report: with all of this
checked, the session has a value, and it is the one it has unchecked. -/
theorem run_faultless (hw : c.FitsWords) (b : Bench σ) (l : Ledger σ) :
    c.run? b l = some (c.run b l) := by
  unfold run? run
  cases hp : c.parameters.check with
  | error e => rfl
  | ok u =>
    have hvalid := (Parameters.check_eq_ok_iff _).mp hp
    cases b.ask .readFrequency l with
    | mk o l₁ =>
      cases o with
      | error e => rfl
      | ok prior =>
        have hloop? := loop?_eq_some (b := b) hw (State.enclosed_initial hvalid) (Nat.zero_add _) []
          (l₁.log .info "Captured original platform frequency")
        simp only [hloop?]
        cases hloop : c.loop b c.maxIterations (State.initial c.parameters) []
            (l₁.log .info "Captured original platform frequency") with
        | mk found l₂ =>
          obtain ⟨ending, probes⟩ := found
          -- The report is read off the state the loop ended in, and that one is in the band.
          obtain ⟨_, _, -, -, -, hex⟩ := loop_explained hloop
          obtain ⟨hlow, hfits⟩ := hex.state_fits hvalid hw.high_lt
          simp only [Option.bind_eq_bind, Option.bind_some]
          cases b.ask (.setFrequency prior) l₂ with
          | mk restored l₃ => cases restored <;> exact conclude?_eq_some hlow hfits ..

/-- The extremes: a band that ends with the last word, a step of half of all words, and as many
measurements as can be counted. -/
theorem run_faultless_at_last_word :
    let c : Session := ⟨⟨⟨1, 18446744073709551615⟩, 9223372036854775808, 1⟩, "IRQ", .empty, "sort",
      4294967295⟩
    let script : Bench.Script := {}
    let l : Ledger Bench.Script.Progress := .fresh { declared := 120 }
    let r : Report := ⟨120, 18446744073709551615, 18446744073709551615, 9223372036854775809,
      .ceilingReached, 2, c.parameters,
      [⟨18446744073709551615, 0, 1⟩, ⟨18446744073709551615, 0, 1⟩]⟩
    c.FitsWords ∧ (c.run? script.bench l).map Prod.fst = some (.ok r) := by
  intro c script l r
  have hw : c.FitsWords := ⟨by decide, by decide, by decide⟩
  have hres : (c.run script.bench l).1 = .ok r := by
    simp only [c, script, l, r]
    rfl
  refine ⟨hw, ?_⟩
  rw [run_faultless hw]
  exact congrArg some hres

end Session

end SafeClock.Search
