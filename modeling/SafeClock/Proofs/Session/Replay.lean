import SafeClock.Proofs.Session.Transcript

/-!
# A report replays the search

A report holds the probes of a session, and the fields it is read for come from one state. This file
says that the probes are those of the search from its initial state, that each of them counts the
traces its candidate left, and that the state is the one the last of them led to. That holds as well
for the reports that come with an error: nothing that was measured is missing from them, and of a
measurement that a tool cut short there is no trace.

> **what is reported is what happened**: the exchanges of a session determine its report.
-/

set_option autoImplicit false

namespace SafeClock.Search

/-- A report is read off a state. -/
structure Report.Reads (r : Report) (p : Parameters) (s : State) : Prop where
  highestSafe_eq : r.highestSafe = s.current
  highestUnsafe_eq : r.highestUnsafe = s.highestUnsafe
  recommended_eq : r.recommended = p.snap s.current
  iterations_eq : r.iterations = s.iteration

theorem Report.reads_ofState (s : State) (t : Termination) (p : Parameters) (prior : Nat)
    (probes : List Probe) : (ofState s t p prior probes).Reads p s :=
  ⟨rfl, rfl, rfl, rfl⟩

namespace Ending

/-- Where a loop stood when it ended. -/
def state : Ending → State
  | finished s _ => s
  | interrupted s _ => s
  | outOfIterations s => s

/-- The word for how a loop ended. -/
def termination : Ending → Termination
  | finished _ t => t
  | interrupted _ _ => .aborted
  | outOfIterations _ => .aborted

end Ending

namespace Session

variable {σ : Type} {c : Session} {b : Bench σ} {l : Ledger σ}

/-- The report that comes with the result of a session. -/
def reported? : Except SessionError Report → Option Report
  | .ok r => some r
  | .error e => e.report?

theorem reported?_outcome {prior : Nat} {ending : Ending} {probes : List Probe}
    {restored : Except ToolingError Unit} {r : Report}
    (h : reported? (c.outcome prior ending probes restored) = some r) :
    r = .ofState ending.state ending.termination c.parameters prior probes := by
  cases ending <;> cases restored <;>
    simp_all [outcome, conclude, reported?, SessionError.report?, Ending.state,
      Ending.termination]

theorem outcome_eq_aborted {prior hz : Nat} {ending : Ending} {probes : List Probe}
    {restored : Except ToolingError Unit} {e : ToolingError} {r : Report}
    (h : c.outcome prior ending probes restored = .error (.aborted hz e r)) :
    ∃ s, ending = .interrupted s e ∧ hz = s.current := by
  cases ending <;> cases restored <;> simp_all [outcome, conclude]

/-- The state a loop ends in counts the measurements. -/
theorem Explains.iteration_eq {left : Nat} {ms : List Measurement} {ending : Ending}
    {cut : List Exchange} (h : c.Explains (.initial c.parameters) left ms ending cut) :
    ending.state.iteration = ms.length := by
  cases h with
  | finished _ hr _ => simpa [State.initial, Ending.state] using hr.iteration_eq
  | interrupted _ hl _ | outOfIterations _ hl =>
    simpa [State.initial, Ending.state] using hl.iteration_eq

/-- **Every report replays the search.** Its probes are those of the measurements the session made,
each with all its trials, and take the search from its initial state to the one the report is read
off: over a whole run unless the word for it is `aborted`, and else over a leg, with what was
exchanged after it a measurement that a tool cut short, or nothing if the measurements ran out. -/
theorem report_replays {r : Report} (h : reported? (c.run b l).1 = some r) :
    ∃ (prior : Nat) (ms : List Measurement) (cut : List Exchange)
      (restored : Except ToolingError Unit),
      Dialogue b l (⟨.readFrequency, .ok prior⟩ :: (ms.flatMap c.exchanges ++ cut) ++
        [⟨.setFrequency prior, restored⟩]) (c.run b l).2 ∧
      (∀ m ∈ ms, m.traces.length = c.parameters.trials) ∧
      r.probes = ms.map c.probeOf ∧ r.iterations = r.probes.length ∧
      r.prior = prior ∧ r.parameters = c.parameters ∧
      (r.termination ≠ .aborted → cut = [] ∧
        ∃ t, Run c.parameters (Measured c.parameters) (.initial c.parameters) r.probes t ∧
          Termination.ofTransition? c.parameters t = some r.termination ∧
          r.Reads c.parameters t.state) ∧
      (r.termination = .aborted →
        ∃ s, Leg c.parameters (Measured c.parameters) (.initial c.parameters) r.probes s ∧
          r.Reads c.parameters s ∧
          ((∃ e, c.BrokenMeasurement s.current e cut) ∨
            cut = [] ∧ r.iterations = c.maxIterations)) ∧
      ((c.run b l).1 = .ok r → r.termination ≠ .aborted) ∧
      (∀ hz e, (c.run b l).1 = .error (.aborted hz e r) →
        r.termination = .aborted ∧ hz = r.highestSafe ∧ c.BrokenMeasurement hz e cut) := by
  obtain ⟨xs, hd, hx⟩ := c.run_transcript b l
  generalize (c.run b l).1 = result at h hx ⊢
  cases hx with
  | invalid _ => exact absurd h (by simp [reported?, SessionError.report?])
  | setup _ => exact absurd h (by simp [reported?, SessionError.report?])
  | @searched prior ms ending cut restored _ hall hex =>
    obtain rfl := reported?_outcome h
    have hreads := Report.reads_ofState ending.state ending.termination c.parameters prior
      (ms.map c.probeOf)
    have hiter : ending.state.iteration = (ms.map c.probeOf).length := by
      rw [hex.iteration_eq, List.length_map]
    refine ⟨prior, ms, cut, restored, hd, hall, rfl, hiter, rfl, rfl, ?_, ?_, ?_, ?_⟩
    · intro hne
      cases hex with
      | finished _ hr ht => exact ⟨rfl, _, hr, ht, hreads⟩
      | interrupted _ _ _ => exact absurd rfl hne
      | outOfIterations _ _ => exact absurd rfl hne
    · intro heq
      cases hex with
      | finished _ _ ht => exact absurd heq (Termination.ne_aborted_of_ofTransition? ht)
      | interrupted _ hl hx => exact ⟨_, hl, hreads, .inl ⟨_, hx⟩⟩
      | outOfIterations hlen hl =>
        exact ⟨_, hl, hreads, .inr ⟨rfl, hiter.trans (List.length_map _ |>.trans hlen)⟩⟩
    · intro hok
      cases hex with
      | finished _ _ ht => exact Termination.ne_aborted_of_ofTransition? ht
      | interrupted _ _ _ => cases restored <;> simp [outcome, conclude] at hok
      | outOfIterations _ _ => cases restored <;> simp [outcome, conclude] at hok
    · intro hz e hab
      obtain ⟨s, rfl, rfl⟩ := outcome_eq_aborted hab
      cases hex with
      | interrupted _ _ hx => exact ⟨rfl, rfl, hx⟩

/-- One of two trials fails at 200 Hz, the second clean at 150 Hz fails, and so does the way back to
120 Hz. The report still replays what came before, and the trial at 150 Hz is in none of its
probes. -/
theorem report_replays_after_failed_restore :
    let cause : ToolingError := .processFailed "make clean" "1" ""
    let c : Session := ⟨⟨⟨100, 200⟩, 50, 2⟩, "IRQ", .empty, "sort", 10⟩
    let script : Bench.Script :=
      { rules := [{ low := some 150, runs := [.ok "IRQ a\nIRQ b", .ok ""] }]
        cleanFaults := [(4, cause)]
        writeFaults := [{ number := some 3, cause := cause }] }
    let l : Ledger Bench.Script.Progress := .fresh { declared := 120 }
    let r : Report := ⟨120, 150, 200, 150, .aborted, 1, c.parameters, [⟨200, 1, 2⟩]⟩
    (c.run script.bench l).1 = .error (.restore 120 cause r) ∧
      ∃ s, Leg c.parameters (Measured c.parameters) (.initial c.parameters) r.probes s ∧
        r.Reads c.parameters s := by
  intro cause c script l r
  have hres : (c.run script.bench l).1 = .error (.restore 120 cause r) := by
    simp only [c, cause, script, l, r]
    rfl
  have hr : reported? (c.run script.bench l).1 = some r := by rw [hres]; rfl
  obtain ⟨_, _, _, _, -, -, -, -, -, -, -, haborted, -, -⟩ := report_replays hr
  obtain ⟨s, hl, hreads, -⟩ := haborted rfl
  exact ⟨hres, s, hl, hreads⟩

end Session

end SafeClock.Search
