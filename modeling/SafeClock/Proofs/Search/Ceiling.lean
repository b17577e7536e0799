import SafeClock.Proofs.Search.Walk

/-!
# The ceiling of the band

A search tries the ceiling first. That it is safe is the one answer that a search cannot check from
above, so this file says what it takes to give it:

> **the ceiling is reached by passing there, and in no other way**: by one result if the band is a
> step wide at most, and by two if it is wider, since the first only makes it the lower bound.

A failure there is final. It caps the search (`capped_of_failed`), so no half-way point climbs back,
and what converges does so below. `Termination.ofTransition?` can therefore read the ceiling off the
last candidate, and the branch of `advance` that exhausts the band upwards is never taken.
-/

set_option autoImplicit false

namespace SafeClock.Search

variable {p : Parameters} {s s' u : State} {q : Probe} {qs : List Probe} {t : Transition}

/-- A result at the ceiling, clean or not. -/
structure AtCeiling (p : Parameters) (clean : Bool) (q : Probe) : Prop where
  isClean_eq : q.isClean = clean
  frequency_eq : q.frequency = p.band.high

theorem AtCeiling.not_failed (h : AtCeiling p true q) : ¬AtCeiling p false q := by
  intro hf
  have hboth := h.isClean_eq.symm.trans hf.isClean_eq
  exact absurd hboth (by simp)

/-- How a search that is under way stands to the ceiling, by the results it has taken in. -/
inductive Approach (p : Parameters) : List Probe → State → Prop
  /-- It was not tried yet. -/
  | fresh : Approach p [] (State.initial p)
  /-- It passed once, in a band wider than a step, and is the next candidate again. -/
  | passed {u : State} {q : Probe} (hq : AtCeiling p true q)
      (hwide : p.step < p.band.high - p.band.low) (hcur : u.current = p.band.high)
      (hgap : u.upper - u.lower ≤ p.step) : Approach p [q] u
  /-- It failed, and the search has left it. -/
  | left {u : State} {qs : List Probe} (hfail : ∃ q ∈ qs, AtCeiling p false q)
      (hcap : Capped p.band.high u) : Approach p qs u

/-- **From the ceiling there is no way but down.** -/
theorem Approach.next (hp : p.Valid) (h : Approach p qs s) (hs : s.Enclosed p) (hq : Located s q)
    (ha : s.advance p q = .proceed s') : Approach p (qs ++ [q]) s' := by
  cases h with
  | fresh =>
    cases hc : q.isClean with
    | true =>
      cases State.move_of_advance ha with
      | raise _ hgap =>
        -- The lower bound meets the upper one, and half way between them is the ceiling again.
        refine .passed ⟨hc, hq⟩ hgap ?_ ?_
        · show p.band.high + (p.band.high - p.band.high) / 2 = p.band.high
          omega
        · show p.band.high - p.band.high ≤ p.step
          omega
      | sink hfail | descend hfail => exact absurd hfail (by simp [hc])
    | false =>
      exact .left ⟨q, by simp, hc, hq⟩ (capped_of_failed hp.2.1 (poised_initial p) hc ha)
  | passed _ _ hcur hgap =>
    have hc := (step_of_close hgap ha).1
    have hpoised : Poised p s := fun hwide => absurd hwide (Nat.not_lt_of_le hgap)
    have hcap := capped_of_failed hp.2.1 hpoised hc ha
    rw [hcur] at hcap
    exact .left ⟨q, by simp, hc, hq.trans hcur⟩ hcap
  | left hfail hcap =>
    obtain ⟨r, hr, hf⟩ := hfail
    exact .left ⟨r, List.mem_append_left _ hr, hf⟩ (hcap.next hs ha)

theorem Leg.approach (hp : p.Valid) (h : Leg p Located (State.initial p) qs u) :
    Approach p qs u :=
  h.keeps_history (fun _ _ _ _ hl hs hq ha =>
    hs.next hp (hl.enclosed (State.enclosed_initial hp)) hq ha) .fresh

/-- The number of times that the ceiling has to pass. -/
def passesNeeded (p : Parameters) : Nat :=
  if p.band.high - p.band.low ≤ p.step then 1 else 2

/-- **A search ends at the ceiling or it has failed there.** -/
theorem Run.ceiling_cases (hp : p.Valid) (h : Run p Located (State.initial p) qs t) :
    (Termination.ofTransition? p t = some .ceilingReached ∧ qs.length = passesNeeded p ∧
      ∀ q ∈ qs, AtCeiling p true q) ∨
    ((∃ q ∈ qs, AtCeiling p false q) ∧
      ((Termination.ofTransition? p t = some .converged ∧ t.state.current < p.band.high) ∨
        (Termination.ofTransition? p t = some .floorReached ∧ t.state.current = p.band.low))) := by
  obtain ⟨rs, q, u, rfl, hl, hq, ha, ht⟩ := run_iff_leg.mp h
  have hends := (hl.enclosed (State.enclosed_initial hp)).end_cases ha ht
  cases hl.approach hp with
  | fresh =>
    rcases hends with ⟨hc, hgap, rfl⟩ | ⟨hc, _, _, rfl⟩
    · refine Or.inl ⟨if_pos (Nat.le_refl _), (if_pos hgap).symm, ?_⟩
      simpa using ⟨hc, hq⟩
    · exact Or.inr ⟨⟨q, by simp, hc, hq⟩, Or.inr ⟨rfl, rfl⟩⟩
  | passed hr hwide hcur =>
    rcases hends with ⟨hc, _, rfl⟩ | ⟨_, _, hfit, _⟩
    · refine Or.inl ⟨if_pos (Nat.le_of_eq hcur.symm), (if_neg (Nat.not_le_of_lt hwide)).symm, ?_⟩
      simpa using ⟨hr, hc, hq.trans hcur⟩
    · -- A band that is wider than a step has room for one below the ceiling.
      rw [hcur] at hfit
      omega
  | left hfail hcap =>
    obtain ⟨r, hr, hf⟩ := hfail
    refine Or.inr ⟨⟨r, List.mem_append_left _ hr, hf⟩, ?_⟩
    rcases hends with ⟨_, _, rfl⟩ | ⟨_, _, _, rfl⟩
    · exact Or.inl ⟨if_neg (Nat.not_le_of_lt hcap.current_lt), hcap.current_lt⟩
    · exact Or.inr ⟨rfl, rfl⟩

/-- A platform on which nothing fails takes the search to the ceiling, whatever the band is. -/
theorem exists_run_ceilingReached (hp : p.Valid) :
    ∃ qs t, Run p Located (State.initial p) qs t ∧
      Termination.ofTransition? p t = some .ceilingReached := by
  let measure : Nat → State → Probe := fun _ s => ⟨s.current, 0, p.trials⟩
  have hm : ∀ i s, Located s (measure i s) ∧ (measure i s).isClean = true :=
    fun _ _ => ⟨rfl, rfl⟩
  obtain ⟨_, qs, t, _, hclean⟩ := exists_run (R := fun s q => Located s q ∧ q.isClean = true) hp hm
  have hrun : Run p Located (State.initial p) qs t := hclean.mono fun _ _ h => h.1
  refine ⟨qs, t, hrun, ?_⟩
  rcases hrun.ceiling_cases hp with ⟨hterm, _⟩ | ⟨⟨q, hq, hf⟩, _⟩
  · exact hterm
  · have hc := hclean.forall_mem (fun _ _ h => h.2) q hq
    exact absurd hc (by simp [hf.isClean_eq])

/-- **When a search reaches the ceiling**: exactly if every result it needs there is clean, and it
has no others. That can happen in every band, but no transition exhausts a band upwards. After a
failure at the ceiling no candidate lies there, and the search converges below it or ends on the
floor, also in a band that is a single frequency. -/
theorem ceilingReached_iff_of_search (hp : p.Valid) :
    (∀ qs s, Leg p Located (State.initial p) qs s →
      (∀ q u, s.advance p q ≠ .exhausted .ceiling u) ∧
      ((∃ q ∈ qs, AtCeiling p false q) → s.current < p.band.high)) ∧
    (∃ qs t, Run p Located (State.initial p) qs t ∧
      Termination.ofTransition? p t = some .ceilingReached) ∧
    ∀ qs t, Run p Located (State.initial p) qs t →
      (Termination.ofTransition? p t = some .ceilingReached ↔
        qs.length = passesNeeded p ∧ ∀ q ∈ qs, AtCeiling p true q) ∧
      ((∃ q ∈ qs, AtCeiling p false q) →
        (Termination.ofTransition? p t = some .converged ∧ t.state.current < p.band.high) ∨
        (Termination.ofTransition? p t = some .floorReached ∧ t.state.current = p.band.low)) := by
  refine ⟨?_, exists_run_ceilingReached hp, ?_⟩
  · intro qs s h
    refine ⟨fun q u => (h.enclosed (State.enclosed_initial hp)).no_ceiling, ?_⟩
    rintro ⟨q, hq, hf⟩
    cases h.approach hp with
    | fresh => exact absurd hq List.not_mem_nil
    | passed hr =>
      rcases List.mem_singleton.mp hq with rfl
      exact absurd hf hr.not_failed
    | left _ hcap => exact hcap.current_lt
  · intro qs t h
    rcases h.ceiling_cases hp with ⟨hterm, hlen, hall⟩ | ⟨⟨r, hr, hf⟩, hends⟩
    · refine ⟨⟨fun _ => ⟨hlen, hall⟩, fun _ => hterm⟩, ?_⟩
      rintro ⟨q, hq, hf⟩
      exact absurd hf (hall q hq).not_failed
    · refine ⟨⟨fun hterm => ?_, fun hall => absurd hf (hall.2 r hr).not_failed⟩, fun _ => hends⟩
      rcases hends with ⟨hconv, _⟩ | ⟨hfloor, _⟩
      · exact absurd (hconv.symm.trans hterm) (by simp)
      · exact absurd (hfloor.symm.trans hterm) (by simp)

/-- In a band of five steps the ceiling is reached by passing twice; passing once and failing once
sends the search down to 180 Hz. -/
theorem ceilingReached_iff_of_search_at_200 :
    let p : Parameters := ⟨⟨100, 200⟩, 20, 3⟩
    let t : Transition := .converged ⟨200, 200, 200, 200, 2⟩
    let s : State := ⟨180, 160, 180, 200, 2⟩
    p.Valid ∧ Run p Located (State.initial p) [⟨200, 0, 3⟩, ⟨200, 0, 3⟩] t ∧
      Termination.ofTransition? p t = some .ceilingReached ∧
      Leg p Located (State.initial p) [⟨200, 0, 3⟩, ⟨200, 1, 3⟩] s ∧ 180 < p.band.high := by
  intro p t s
  have hp : p.Valid := by decide
  have hfirst : (State.initial p).advance p ⟨200, 0, 3⟩ = .proceed ⟨200, 200, 200, 200, 1⟩ := by
    decide
  have hpass : State.advance p ⟨200, 200, 200, 200, 1⟩ ⟨200, 0, 3⟩ = t := by decide
  have hfail : State.advance p ⟨200, 200, 200, 200, 1⟩ ⟨200, 1, 3⟩ = .proceed s := by decide
  have hrun : Run p Located (State.initial p) [⟨200, 0, 3⟩, ⟨200, 0, 3⟩] t :=
    .step rfl hfirst (.last rfl hpass rfl)
  have hleg : Leg p Located (State.initial p) [⟨200, 0, 3⟩, ⟨200, 1, 3⟩] s :=
    .step rfl hfirst (.step rfl hfail .rest)
  obtain ⟨hlegs, _, hruns⟩ := ceilingReached_iff_of_search hp
  refine ⟨hp, hrun, (hruns _ t hrun).1.mpr ⟨rfl, ?_⟩, hleg, (hlegs _ s hleg).2 ?_⟩
  · have hclean : AtCeiling p true ⟨200, 0, 3⟩ := ⟨rfl, rfl⟩
    simpa using hclean
  · exact ⟨⟨200, 1, 3⟩, by simp, rfl, rfl⟩

end SafeClock.Search
