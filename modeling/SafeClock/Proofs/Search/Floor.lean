import SafeClock.Proofs.Search.Accuracy
import SafeClock.Proofs.Search.Phases

/-!
# What a search that ends at the floor has seen

`Termination.floorReached` says that the walk down passed the floor. It does not say that nothing
passed: the walk starts half a gap above a lower bound that was measured clean, and takes a whole
step from there without a look at that bound. A step longer than the way to the floor ends the
search at the floor, and the clean frequency in between is forgotten.

> **the floor hides what halving found**: a search that ends at the floor saw a clean candidate
> exactly if the walk began with a lower bound above the floor.

Parameters rule this out for every platform only where there is nothing to halve.
-/

set_option autoImplicit false

namespace SafeClock.Search

variable {p : Parameters} {R : State → Probe → Prop} {s : State} {qs : List Probe} {t : Transition}

theorem Run.exists_head (h : Run p R s qs t) : ∃ q rest, qs = q :: rest ∧ R s q := by
  cases h with
  | last hq => exact ⟨_, [], rfl, hq⟩
  | step hq => exact ⟨_, _, rfl, hq⟩

/-- Results that are clean for as long as the bounds are apart and failures from then on. -/
def Fickle (p : Parameters) (s : State) (q : Probe) : Prop :=
  Measured p s q ∧ (q.isClean = true ↔ p.step < s.upper - s.lower)

/-- A platform that turns on the search after the halving ends at the floor. -/
theorem exists_run_fickle (hp : p.Valid) :
    ∃ qs t, Run p (Fickle p) (State.initial p) qs t ∧
      Termination.ofTransition? p t = some .floorReached := by
  let measure : Nat → State → Probe := fun _ s =>
    ⟨s.current, if p.step < s.upper - s.lower then 0 else p.trials, p.trials⟩
  have hm : ∀ i s, Fickle p s (measure i s) := by
    intro i s
    have ht := Nat.pos_iff_ne_zero.mp hp.2.2
    refine ⟨⟨rfl, rfl, ?_⟩, ?_⟩ <;> by_cases h : p.step < s.upper - s.lower <;>
      simp [measure, Probe.isClean, h, ht]
  obtain ⟨_, qs, t, _, hrun⟩ := exists_run hp hm
  refine ⟨qs, t, hrun, ?_⟩
  obtain ⟨u, q, hu, hq, ha, ht⟩ := hrun.exists_last (State.enclosed_initial hp)
  rcases hu.end_cases ha ht with ⟨hc, hgap, _⟩ | ⟨_, _, _, rfl⟩
  · exact absurd (hq.2.mp hc) (Nat.not_lt_of_le hgap)
  · rfl

/-- **When a search that ends at the floor has seen something pass.** A single search has exactly if
its walk began above the floor, with a lower bound that the halving had raised. Among parameters,
exactly those whose whole band fits into one step exclude it for every platform. -/
theorem floorReached_clean_iff (hp : p.Valid) :
    (∀ qs t, Run p (Measured p) (State.initial p) qs t →
      Termination.ofTransition? p t = some .floorReached →
      ∃ bs ws m, qs = bs ++ ws ∧ Leg p (Wide p (Measured p)) (State.initial p) bs m ∧
        Run p (Close p (Measured p)) m ws t ∧
        ((∃ q ∈ qs, q.isClean = true) ↔ p.band.low < m.lower)) ∧
    ((∀ qs t, Run p (Measured p) (State.initial p) qs t →
      Termination.ofTransition? p t = some .floorReached → ∀ q ∈ qs, q.isClean = false) ↔
      p.band.high - p.band.low ≤ p.step) := by
  have hs := State.enclosed_initial hp
  constructor
  · intro qs t hrun hfloor
    obtain ⟨bs, ws, m, rfl, hleg, -, hwalk⟩ := hrun.split hs
    refine ⟨bs, ws, m, rfl, hleg, hwalk, ?_⟩
    have hfail := hwalk.failed_of_floorReached (hleg.enclosed hs) hfloor
    refine Iff.trans ?_ (hleg.lower_lt_iff hp.2.1 (poised_initial p)).2.symm
    constructor
    · rintro ⟨q, hq, hc⟩
      rcases List.mem_append.mp hq with hq | hq
      · exact ⟨q, hq, hc⟩
      · exact absurd hc (by simp [hfail q hq])
    · rintro ⟨q, hq, hc⟩
      exact ⟨q, List.mem_append_left _ hq, hc⟩
  · constructor
    · intro hall
      refine Nat.le_of_not_lt fun hgap => ?_
      obtain ⟨qs, t, hrun, hfloor⟩ := exists_run_fickle hp
      obtain ⟨q, rest, rfl, hq⟩ := hrun.exists_head
      have hc := hall _ t (hrun.mono fun _ _ h => h.1) hfloor q List.mem_cons_self
      rw [hq.2.mpr hgap] at hc
      exact absurd hc (by simp)
    · intro hgap qs t hrun hfloor
      exact (hrun.close hgap).failed_of_floorReached hs hfloor

/-- The default step in a band of two steps: a platform that turns fickle ends at the floor after a
clean ceiling, and the band allows it. -/
theorem floorReached_clean_iff_two_steps :
    let p : Parameters := ⟨⟨100, 200⟩, 50, 3⟩
    p.Valid ∧ ¬∀ qs t, Run p (Measured p) (State.initial p) qs t →
      Termination.ofTransition? p t = some .floorReached → ∀ q ∈ qs, q.isClean = false := by
  intro p
  have hp : p.Valid := by decide
  exact ⟨hp, fun hall => absurd ((floorReached_clean_iff hp).2.mp hall) (by decide)⟩

/-- No noise is needed: a platform that is safe up to 150 Hz passes at 150 Hz, fails at 175 Hz, and
is sent from there past the floor, since 175 - 80 is below 100. -/
theorem floorReached_past_clean_at_150 :
    let p : Parameters := ⟨⟨100, 200⟩, 80, 3⟩
    let qs : List Probe := [⟨200, 3, 3⟩, ⟨150, 0, 3⟩, ⟨175, 3, 3⟩]
    let t : Transition := .exhausted .floor ⟨100, 150, 200, 200, 3⟩
    p.Valid ∧ Run p (Sharp p 150) (State.initial p) qs t ∧
      Termination.ofTransition? p t = some .floorReached ∧ ∃ q ∈ qs, q.isClean = true := by
  intro p qs t
  have hfirst : (State.initial p).advance p ⟨200, 3, 3⟩ = .proceed ⟨150, 100, 200, 200, 1⟩ := by
    decide
  have hsecond : State.advance p ⟨150, 100, 200, 200, 1⟩ ⟨150, 0, 3⟩ =
      .proceed ⟨175, 150, 200, 200, 2⟩ := by
    decide
  have hthird : State.advance p ⟨175, 150, 200, 200, 2⟩ ⟨175, 3, 3⟩ = t := by decide
  refine ⟨by decide, ?_, rfl, ⟨150, 0, 3⟩, by decide, rfl⟩
  refine .step ⟨⟨rfl, rfl, by decide⟩, by decide⟩ hfirst ?_
  refine .step ⟨⟨rfl, rfl, by decide⟩, by decide⟩ hsecond ?_
  exact .last ⟨⟨rfl, rfl, by decide⟩, by decide⟩ hthird rfl

end SafeClock.Search
