import SafeClock.Proofs.Grid
import SafeClock.Proofs.Search.Phases

/-!
# A frequency that failed is left behind

A search does not simply go down: a clean result moves the candidate up, and a noisy platform may
pass where it failed before. But the way up ends below everything that has failed:

> **a failure is a ceiling**: from then on the upper bound is no higher than the frequency that
> failed, and every candidate is below it (`Capped`).

The failed candidate becomes the upper bound, and half-way points are rounded down, so they stay
below it. What remains to be seen is that the failure itself moves the candidate. That needs the
lower bound to lie below it (`Poised`), or half way down to that bound would be no way at all.
-/

set_option autoImplicit false

namespace SafeClock.Search

variable {p : Parameters} {s s' u : State} {q : Probe} {qs : List Probe} {t : Transition} {f : Nat}

/-- A result at the candidate of a state. How many trials were run and how many failed is open. -/
def Located (s : State) (q : Probe) : Prop := q.frequency = s.current

/-- The candidate and the upper bound keep below a frequency; only the bound may touch it. -/
structure Capped (f : Nat) (s : State) : Prop where
  upper_le : s.upper ≤ f
  current_lt : s.current < f

/-- **A failure caps the search.** -/
theorem capped_of_failed (hp : 0 < p.step) (hs : Poised p s) (hq : q.isClean = false)
    (ha : s.advance p q = .proceed s') : Capped s.current s' := by
  cases State.move_of_advance ha with
  | raise hc => exact absurd hc (by simp [hq])
  | sink _ hgap =>
    have hlt := hs hgap
    refine ⟨Nat.le_refl _, ?_⟩
    show s.lower + (s.current - s.lower) / 2 < s.current
    omega
  | descend _ _ hfit =>
    refine ⟨Nat.sub_le _ _, ?_⟩
    show s.current - p.step < s.current
    omega

/-- **A cap stays on.** -/
theorem Capped.next (h : Capped f s) (hs : s.Enclosed p) (ha : s.advance p q = .proceed s') :
    Capped f s' := by
  obtain ⟨hu, hc⟩ := h
  have hlc := hs.lower_le_current
  cases State.move_of_advance ha with
  | raise =>
    refine ⟨hu, ?_⟩
    show s.current + (s.upper - s.current) / 2 < f
    omega
  | sink =>
    refine ⟨Nat.le_of_lt hc, ?_⟩
    show s.lower + (s.current - s.lower) / 2 < f
    omega
  | descend =>
    have hle := Nat.sub_le s.current p.step
    exact ⟨Nat.le_trans hle (Nat.le_of_lt hc), Nat.lt_of_le_of_lt hle hc⟩

theorem Leg.capped (h : Leg p Located s qs u) (hs : s.Enclosed p) (hc : Capped f s) :
    Capped f u ∧ ∀ q ∈ qs, q.frequency < f := by
  induction h with
  | rest => exact ⟨hc, fun q hq => absurd hq List.not_mem_nil⟩
  | step hq ha _ ih =>
    obtain ⟨hu, hrest⟩ := ih (hs.next ha) (hc.next hs ha)
    refine ⟨hu, fun r hr => ?_⟩
    rcases List.mem_cons.mp hr with rfl | hr
    · exact Nat.lt_of_le_of_lt (Nat.le_of_eq hq) hc.current_lt
    · exact hrest r hr

/-- Every failure of a leg is above all that the leg measures after it, and above the candidate it
leaves. -/
theorem Leg.below_failed (hp : 0 < p.step) (h : Leg p Located s qs u) (hs : s.Enclosed p)
    (hpoised : Poised p s) :
    qs.Pairwise (fun q r => q.isClean = false → r.frequency < q.frequency) ∧
      ∀ q ∈ qs, q.isClean = false → u.current < q.frequency := by
  induction h with
  | rest => exact ⟨.nil, fun q hq => absurd hq List.not_mem_nil⟩
  | @step s s' u q qs hq ha hl ih =>
    obtain ⟨hpair, hbelow⟩ := ih (hs.next ha) (poised_next hp ha)
    -- If the first result failed, it caps the rest of the leg; the others are the hypothesis.
    have hcap : q.isClean = false → Capped q.frequency u ∧ ∀ r ∈ qs, r.frequency < q.frequency := by
      intro hc
      have hfirst := capped_of_failed hp hpoised hc ha
      rw [← hq] at hfirst
      exact hl.capped (hs.next ha) hfirst
    refine ⟨List.pairwise_cons.mpr ⟨fun r hr hc => (hcap hc).2 r hr, hpair⟩, fun r hr hc => ?_⟩
    rcases List.mem_cons.mp hr with rfl | hr
    · exact (hcap hc).1.current_lt
    · exact hbelow r hr hc

/-- **What failed is above all that comes after it**, in a search that is under way as in one that
has ended, and however noisy the platform is. So the frequency a search converges on is below every
frequency that failed, and so is the grid point it recommends. -/
theorem below_failed_of_search (hp : p.Valid) :
    (∀ qs u, Leg p Located (State.initial p) qs u →
      qs.Pairwise (fun q r => q.isClean = false → r.frequency < q.frequency) ∧
      ∀ q ∈ qs, q.isClean = false → u.current < q.frequency) ∧
    ∀ qs t, Run p Located (State.initial p) qs t →
      qs.Pairwise (fun q r => q.isClean = false → r.frequency < q.frequency) ∧
      ∀ u, t = .converged u → ∀ q ∈ qs, q.isClean = false →
        u.current < q.frequency ∧ p.snap u.current < q.frequency := by
  have hs := State.enclosed_initial hp
  refine ⟨fun qs u hl => hl.below_failed hp.2.1 hs (poised_initial p), fun qs t hrun => ?_⟩
  obtain ⟨rs, r, s, rfl, hl, hr, ha, ht⟩ := run_iff_leg.mp hrun
  obtain ⟨hpair, hbelow⟩ := hl.below_failed hp.2.1 hs (poised_initial p)
  constructor
  · refine List.pairwise_append.mpr ⟨hpair, List.pairwise_singleton _ _, fun q hq r' hr' hc => ?_⟩
    rcases List.mem_singleton.mp hr' with rfl
    exact Nat.lt_of_le_of_lt (Nat.le_of_eq hr) (hbelow q hq hc)
  · rintro u rfl q hq hc
    have hlast := hl.enclosed hs
    rcases hlast.end_cases ha ht with ⟨hclean, _, hu⟩ | ⟨_, _, _, hu⟩
    · have hcur : u.current = s.current := congrArg (fun t => t.state.current) hu
      rw [hcur]
      rcases List.mem_append.mp hq with hq | hq
      · have hlt := hbelow q hq hc
        exact ⟨hlt, Nat.lt_of_le_of_lt (Parameters.snap_le hp.2.1 hlast.low_le_current) hlt⟩
      · rcases List.mem_singleton.mp hq with rfl
        exact absurd hclean (by simp [hc])
    · exact absurd hu (by simp)

/-- The ceiling passes once and fails when it is measured again: the search steps down from it and
converges a step below. -/
theorem below_failed_of_search_at_180 :
    let p : Parameters := ⟨⟨100, 200⟩, 20, 3⟩
    let qs : List Probe := [⟨200, 0, 3⟩, ⟨200, 1, 3⟩, ⟨180, 0, 3⟩]
    let u : State := ⟨180, 160, 180, 200, 3⟩
    p.Valid ∧ Run p Located (State.initial p) qs (.converged u) ∧
      ∀ q ∈ qs, q.isClean = false → 180 < q.frequency ∧ p.snap 180 < q.frequency := by
  intro p qs u
  have hp : p.Valid := by decide
  have hfirst : (State.initial p).advance p ⟨200, 0, 3⟩ = .proceed ⟨200, 200, 200, 200, 1⟩ := by
    decide
  have hsecond : State.advance p ⟨200, 200, 200, 200, 1⟩ ⟨200, 1, 3⟩ =
      .proceed ⟨180, 160, 180, 200, 2⟩ := by
    decide
  have hthird : State.advance p ⟨180, 160, 180, 200, 2⟩ ⟨180, 0, 3⟩ = .converged u := by decide
  have hrun : Run p Located (State.initial p) qs (.converged u) :=
    .step rfl hfirst (.step rfl hsecond (.last rfl hthird rfl))
  exact ⟨hp, hrun, ((below_failed_of_search hp).2 qs _ hrun).2 u rfl⟩

end SafeClock.Search
