import SafeClock.Proofs.Grid
import SafeClock.Proofs.Search.Halting

/-!
# How close a search comes to the truth

A platform has a *threshold* if it is safe up to a frequency and fails above it. Halving brackets
the threshold, and the walk down stops within a step of it:

> **the answer is less than one step low**: with the threshold in the band, the search ends on a
> frequency that is safe, and a whole step above it is not.

Two facts carry this. While the bounds are apart the threshold is between them, and once they are
close it is less than a step above the candidate (`Near`). The second outlives the first: a step of
the walk sets bounds that nobody measured, but it leaves a candidate that failed.
-/

set_option autoImplicit false

namespace SafeClock.Search

variable {p : Parameters} {T : Nat} {s s' : State} {q : Probe} {qs : List Probe} {t : Transition}

/-- A result at a platform that is safe up to a threshold and nowhere above it. How many trials fail
above it is left open. -/
structure Sharp (p : Parameters) (T : Nat) (s : State) (q : Probe) : Prop extends
    Measured p s q where
  clean_iff : q.isClean = true ↔ s.current ≤ T

theorem Sharp.lt_of_fail (h : Sharp p T s q) (hq : q.isClean = false) : T < s.current := by
  refine Nat.lt_of_not_le fun hle => ?_
  rw [h.clean_iff.mpr hle] at hq
  exact absurd hq (by simp)

/-- Where the threshold is, seen from a state: between the bounds, or, once these are close, less
than a step above the candidate. -/
def Near (p : Parameters) (T : Nat) (s : State) : Prop :=
  (s.lower ≤ T ∧ T < s.upper) ∨ (s.upper - s.lower ≤ p.step ∧ T < s.current + p.step)

theorem Near.next (hn : Near p T s) (hq : Sharp p T s q) (ha : s.advance p q = .proceed s') :
    Near p T s' := by
  cases State.move_of_advance ha with
  | raise hc hgap _ =>
    have hle := hq.clean_iff.mp hc
    rcases hn with ⟨_, hup⟩ | ⟨hclose, _⟩
    · exact Or.inl ⟨hle, hup⟩
    · omega
  | sink hc hgap =>
    have hlt := hq.lt_of_fail hc
    rcases hn with ⟨hlow, _⟩ | ⟨hclose, _⟩
    · exact Or.inl ⟨hlow, hlt⟩
    · omega
  | descend hc hclose hfit =>
    have hlt := hq.lt_of_fail hc
    refine Or.inr ⟨close_next hclose ha, ?_⟩
    show T < s.current - p.step + p.step
    omega

theorem Near.lt_of_close (hn : Near p T s) (hs : s.Enclosed p)
    (hgap : s.upper - s.lower ≤ p.step) : T < s.current + p.step := by
  have hlc := hs.lower_le_current
  rcases hn with ⟨_, hup⟩ | ⟨_, hlt⟩ <;> omega

/-! ## The three places a threshold can be in -/

/-- **Inside the band**: the search ends on a safe frequency, and one step higher fails. -/
theorem Run.near (hp : p.Valid) (hlow : p.band.low ≤ T) (hhigh : T < p.band.high)
    (h : Run p (Sharp p T) (State.initial p) qs t) :
    (Termination.ofTransition? p t = some .converged ∨
      Termination.ofTransition? p t = some .floorReached) ∧
    p.band.low ≤ t.state.current ∧ t.state.current ≤ T ∧ T < t.state.current + p.step := by
  obtain ⟨s, q, ⟨hs, hn⟩, hq, ha, ht⟩ := h.final (I := fun s => s.Enclosed p ∧ Near p T s)
    (fun _ _ _ hs hq ha => ⟨hs.1.next ha, hs.2.next hq ha⟩)
    ⟨State.enclosed_initial hp, Or.inl ⟨hlow, hhigh⟩⟩
  rcases hs.end_cases ha ht with ⟨hc, hgap, rfl⟩ | ⟨hc, _, hfit, rfl⟩
  · have hle := hq.clean_iff.mp hc
    have hlt := hn.lt_of_close hs hgap
    refine ⟨Or.inl ?_, hs.low_le_current, hle, hlt⟩
    rw [Termination.ofTransition?, if_neg]
    show ¬p.band.high ≤ s.current
    omega
  · have hlt := hq.lt_of_fail hc
    refine ⟨Or.inr rfl, Nat.le_refl _, hlow, ?_⟩
    show T < p.band.low + p.step
    omega

/-- **At or above the ceiling**: every result is clean, and the search never leaves the ceiling. -/
theorem Run.ceilingReached (hp : p.Valid) (hT : p.band.high ≤ T)
    (h : Run p (Sharp p T) (State.initial p) qs t) :
    Termination.ofTransition? p t = some .ceilingReached ∧ t.state.current = p.band.high := by
  have hkeep : ∀ s q s', s.Enclosed p ∧ s.current = p.band.high → Sharp p T s q →
      s.advance p q = .proceed s' → s'.Enclosed p ∧ s'.current = p.band.high := by
    rintro s q s' ⟨hs, hc⟩ hq ha
    refine ⟨hs.next ha, ?_⟩
    have hup := Nat.le_trans hs.upper_le_unsafe hs.unsafe_le_high
    cases State.move_of_advance ha with
    | raise =>
      show s.current + (s.upper - s.current) / 2 = p.band.high
      omega
    | sink hf | descend hf => exact absurd (hq.lt_of_fail hf) (by omega)
  obtain ⟨s, q, ⟨hs, hc⟩, hq, ha, ht⟩ := h.final hkeep ⟨State.enclosed_initial hp, rfl⟩
  rcases hs.end_cases ha ht with ⟨_, _, rfl⟩ | ⟨hf, _, _, _⟩
  · refine ⟨?_, hc⟩
    rw [Termination.ofTransition?, if_pos]
    exact Nat.le_of_eq hc.symm
  · exact absurd (hq.lt_of_fail hf) (by omega)

/-- **Below the band**: every result is a failure, and the search walks off the floor. -/
theorem Run.floorReached (hp : p.Valid) (hT : T < p.band.low)
    (h : Run p (Sharp p T) (State.initial p) qs t) :
    Termination.ofTransition? p t = some .floorReached ∧ t.state.current = p.band.low := by
  obtain ⟨s, q, hs, hq, ha, ht⟩ := h.exists_last (State.enclosed_initial hp)
  have hlow := hs.low_le_current
  rcases hs.end_cases ha ht with ⟨hc, _, _⟩ | ⟨_, _, _, rfl⟩
  · exact absurd (hq.clean_iff.mp hc) (by omega)
  · exact ⟨rfl, rfl⟩

/-! ## The answer of a driven search -/

/-- **A platform with a threshold gets the answer it deserves.** The search ends, whatever the
number of failed trials above the threshold and however it changes from one measurement to the next,
and where it ends depends on the place of the threshold alone. The recommendation is a second
rounding down, so it may be up to two steps low. -/
theorem drive_of_threshold (hp : p.Valid) (T : Nat) (measure : Nat → State → Probe)
    (hm : ∀ i s, Sharp p T s (measure i s)) :
    ∃ fuel last, (State.drive p measure fuel 0 (State.initial p)).getLast? = some last ∧
      (p.band.high ≤ T → Termination.ofTransition? p last = some .ceilingReached ∧
        last.state.current = p.band.high) ∧
      (T < p.band.low → Termination.ofTransition? p last = some .floorReached ∧
        last.state.current = p.band.low) ∧
      (p.band.low ≤ T → T < p.band.high →
        (Termination.ofTransition? p last = some .converged ∨
          Termination.ofTransition? p last = some .floorReached) ∧
        last.state.current ≤ T ∧ T - last.state.current < p.step ∧
        p.band.low ≤ p.snap last.state.current ∧ p.snap last.state.current ≤ T ∧
        T - p.snap last.state.current ≤ 2 * p.step - 2) := by
  have hstep := hp.2.1
  obtain ⟨fuel, qs, last, hlast, hrun⟩ := exists_run hp hm
  refine ⟨fuel, last, hlast, hrun.ceilingReached hp, hrun.floorReached hp, fun hlow hhigh => ?_⟩
  obtain ⟨hend, hfloor, hle, hlt⟩ := hrun.near hp hlow hhigh
  have hsnap := Parameters.snap_le hstep hfloor
  have hnear := Parameters.lt_snap_add_step hstep last.state.current
  exact ⟨hend, hle, by omega, Parameters.low_le_snap hstep _, Nat.le_trans hsnap hle, by omega⟩

/-- The default parameters with a threshold in the middle of the band. -/
theorem drive_of_threshold_at_5000 :
    let p : Parameters := ⟨⟨100, 10000⟩, 50, 3⟩
    let measure : Nat → State → Probe := fun _ s =>
      ⟨s.current, if s.current ≤ 5000 then 0 else 3, 3⟩
    p.Valid ∧ (∀ i s, Sharp p 5000 s (measure i s)) ∧
      ∃ fuel last, (State.drive p measure fuel 0 (State.initial p)).getLast? = some last ∧
        (Termination.ofTransition? p last = some .converged ∨
          Termination.ofTransition? p last = some .floorReached) ∧
        last.state.current ≤ 5000 ∧ 5000 - last.state.current < 50 ∧
        p.snap last.state.current ≤ 5000 ∧ 5000 - p.snap last.state.current ≤ 98 := by
  intro p measure
  have hp : p.Valid := by decide
  have hm : ∀ i s, Sharp p 5000 s (measure i s) := by
    intro i s
    refine ⟨⟨rfl, rfl, ?_⟩, ?_⟩ <;> by_cases h : s.current ≤ 5000 <;>
      simp [measure, p, Probe.isClean, h]
  obtain ⟨fuel, last, hlast, -, -, hin⟩ := drive_of_threshold hp 5000 measure hm
  obtain ⟨hend, hle, hlt, -, hsnap, hnear⟩ := hin (by decide) (by decide)
  exact ⟨hp, hm, fuel, last, hlast, hend, hle, hlt, hsnap, hnear⟩

end SafeClock.Search
