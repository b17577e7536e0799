import SafeClock.Proofs.Search.Walk
import SafeClock.Proofs.Session.Transcript

/-!
# What a report vouches for

`Report.isConfirmedSafe` reads the word for the end and nothing else: no probe is looked at. This
file says that the word can be trusted.

> **confirmed is measured**: a session that returns a report vouches for its `highestSafe` exactly
> if one of the probes there is clean, and then the last one is.

Two things could come between the word and the probes. The ceiling could be handed out unmeasured,
but nothing exhausts a band upwards (`State.Enclosed.no_ceiling`). And the floor, which a search
falls back on, could have passed before. It cannot: as long as the bounds are apart, the candidate
lies above the floor, and once they are close, what passes ends the search.
-/

set_option autoImplicit false

namespace SafeClock.Search

variable {p : Parameters} {s u : State} {qs : List Probe} {t : Transition}

/-! ## A floor that was passed on is no answer -/

/-- As long as a search halves, it measures above the floor. -/
theorem Leg.low_lt (hp : 0 < p.step) (h : Leg p (Wide p Located) s qs u) (hs : s.Enclosed p)
    (hpoised : Poised p s) : ∀ q ∈ qs, p.band.low < q.frequency := by
  induction h with
  | rest => exact fun q hq => absurd hq List.not_mem_nil
  | step hq ha _ ih =>
    intro r hr
    rcases List.mem_cons.mp hr with rfl | hr
    · rw [hq.allowed]
      exact Nat.lt_of_le_of_lt hs.low_le_lower (hpoised hq.gap)
    · exact ih (hs.next ha) (poised_next hp ha) r hr

/-- What passes in a search that ends at the floor passes above it. -/
theorem Run.low_lt_of_floorReached (hp : p.Valid) (h : Run p Located (State.initial p) qs t)
    (ht : Termination.ofTransition? p t = some .floorReached) :
    ∀ q ∈ qs, q.isClean = true → p.band.low < q.frequency := by
  have hs := State.enclosed_initial hp
  obtain ⟨bs, ws, m, rfl, hhalving, -, hwalk⟩ := h.split hs
  intro q hq hc
  rcases List.mem_append.mp hq with hq | hq
  · exact hhalving.low_lt hp.2.1 hs (poised_initial p) q hq
  · have hfail := hwalk.failed_of_floorReached (hhalving.enclosed hs) ht q hq
    exact absurd hc (by simp [hfail])

/-- What the word for the end of a search says about its last result. -/
inductive LastWord (p : Parameters) (t : Transition) (q : Probe) : Termination → Prop
  /-- It passed, and is the answer. -/
  | passed {w : Termination} (hq : q.isClean = true) (hf : q.frequency = t.state.current)
      (hw : w = .converged ∨ w = .ceilingReached) : LastWord p t q w
  /-- It failed, and the answer is the floor. -/
  | failed (hq : q.isClean = false) (hlow : t.state.current = p.band.low) :
      LastWord p t q .floorReached

/-- **The word for an end is about the last result.** -/
theorem Run.lastWord {w : Termination} (hp : p.Valid) (h : Run p Located (State.initial p) qs t)
    (ht : Termination.ofTransition? p t = some w) :
    ∃ q, qs.getLast? = some q ∧ LastWord p t q w := by
  obtain ⟨rs, q, s, rfl, hl, hq, ha, hterm⟩ := run_iff_leg.mp h
  refine ⟨q, List.getLast?_concat, ?_⟩
  rcases ((hl.enclosed (State.enclosed_initial hp)).last_result hq ha hterm).2 with
    ⟨hc, v, rfl, hv⟩ | ⟨hc, -, v, rfl, hv⟩
  · refine .passed hc hv.symm ?_
    rw [Termination.ofTransition?] at ht
    split at ht
    · exact .inr (Option.some.inj ht).symm
    · exact .inl (Option.some.inj ht).symm
  · obtain rfl : Termination.floorReached = w := Option.some.inj ht
    exact .failed hc hv

namespace Session

variable {σ : Type} {c : Session} {b : Bench σ} {l : Ledger σ} {r : Report}

/-! ## The report of a session -/

theorem outcome_eq_ok {prior : Nat} {ending : Ending} {probes : List Probe}
    {restored : Except ToolingError Unit}
    (h : c.outcome prior ending probes restored = .ok r) :
    ∃ s w, ending = .finished s w ∧ r = .ofState s w c.parameters prior probes := by
  cases ending <;> cases restored <;> simp_all [outcome, conclude]

/-- A report that a session returns is about a search that came to its end. -/
theorem exists_run_of_ok (h : (c.run b l).1 = .ok r) :
    c.parameters.Valid ∧ ∃ t, Run c.parameters Located (.initial c.parameters) r.probes t ∧
      Termination.ofTransition? c.parameters t = some r.termination ∧
      r.highestSafe = t.state.current := by
  obtain ⟨xs, -, hx⟩ := c.run_transcript b l
  rw [h] at hx
  generalize hresult : (.ok r : Except SessionError Report) = result at hx
  cases hx with
  | invalid | setup => exact absurd hresult (by simp)
  | searched hp _ hex =>
    obtain ⟨s, w, rfl, rfl⟩ := outcome_eq_ok hresult.symm
    cases hex with
    | finished _ hr ht =>
      have hlocated := hr.mono fun _ _ hq => hq.frequency_eq
      exact ⟨(Parameters.check_eq_ok_iff _).mp hp, _, hlocated, ht, rfl⟩

/-- **Confirmed is measured.** A report that a session returns vouches for its answer exactly if one
of its probes is clean there. If it does, the last probe is such a one; if it does not, the answer
is the floor of the band, and the last probe failed. -/
theorem isConfirmedSafe_iff_of_run (h : (c.run b l).1 = .ok r) :
    (r.isConfirmedSafe = true ↔
      ∃ q ∈ r.probes, q.isClean = true ∧ q.frequency = r.highestSafe) ∧
    (r.isConfirmedSafe = true →
      ∃ q, r.probes.getLast? = some q ∧ q.isClean = true ∧ q.frequency = r.highestSafe) ∧
    (r.isConfirmedSafe = false →
      r.highestSafe = c.parameters.band.low ∧
        ∃ q, r.probes.getLast? = some q ∧ q.isClean = false) := by
  obtain ⟨hp, t, hrun, ht, hsafe⟩ := exists_run_of_ok h
  obtain ⟨q, hlast, hword⟩ := hrun.lastWord hp ht
  generalize hw : r.termination = w at ht hword
  cases hword with
  | passed hc hf hword =>
    have hconfirmed : r.isConfirmedSafe = true := by
      rcases hword with rfl | rfl <;> simp [Report.isConfirmedSafe, hw]
    have hat : q.frequency = r.highestSafe := hf.trans hsafe.symm
    refine ⟨⟨fun _ => ⟨q, List.mem_of_getLast? hlast, hc, hat⟩, fun _ => hconfirmed⟩,
      fun _ => ⟨q, hlast, hc, hat⟩, fun hno => ?_⟩
    exact absurd hconfirmed (by simp [hno])
  | failed hc hlow =>
    have hno : r.isConfirmedSafe = false := by simp [Report.isConfirmedSafe, hw]
    have hfloor : r.highestSafe = c.parameters.band.low := hsafe.trans hlow
    refine ⟨⟨fun hyes => absurd hyes (by simp [hno]), ?_⟩,
      fun hyes => absurd hyes (by simp [hno]), fun _ => ⟨hfloor, q, hlast, hc⟩⟩
    -- A clean probe at the answer would be one at the floor, and there is none.
    rintro ⟨r', hr', hclean, hat⟩
    have hlt := hrun.low_lt_of_floorReached hp ht r' hr' hclean
    exact absurd hlt (by simp [hat, hfloor])

/-- A workload that is safe up to 150 Hz passes there, fails at 175 Hz, and is sent to the floor. The
report has a clean probe and vouches for nothing: the probe is not one of 100 Hz. -/
theorem isConfirmedSafe_iff_of_run_at_floor :
    let c : Session := ⟨⟨⟨100, 200⟩, 80, 1⟩, "IRQ", .empty, "sort", 10⟩
    let script : Bench.Script := { rules := [{ low := some 151, runs := [.ok "IRQ a\nIRQ b"] }] }
    let l : Ledger Bench.Script.Progress := .fresh { declared := 120 }
    let r : Report := ⟨120, 100, 200, 100, .floorReached, 3, c.parameters,
      [⟨200, 1, 1⟩, ⟨150, 0, 1⟩, ⟨175, 1, 1⟩]⟩
    (c.run script.bench l).1 = .ok r ∧ r.isConfirmedSafe = false ∧
      ¬∃ q ∈ r.probes, q.isClean = true ∧ q.frequency = r.highestSafe := by
  intro c script l r
  have hres : (c.run script.bench l).1 = .ok r := by
    simp only [c, script, l, r]
    rfl
  obtain ⟨hiff, -, -⟩ := isConfirmedSafe_iff_of_run hres
  exact ⟨hres, rfl, fun hmeasured => absurd (hiff.mpr hmeasured) (by decide)⟩

end Session

end SafeClock.Search
