import SafeClock.Proofs.Search.Course

/-!
# Halving, then walking

While the bounds are more than a step apart a search halves the gap; once they are close it walks
down. The two never alternate:

> **the walk is never left**: bounds that are close stay close (`close_next`), so a run is a leg of
> halving and a run of walking, and it ends in the walk (`Run.split`).

`Wide` and `Close` restrict a relation on results to the states of one phase, so that a phase is a
`Leg` or a `Run` like any other.
-/

set_option autoImplicit false

namespace SafeClock.Search

variable {p : Parameters} {R : State → Probe → Prop} {s s' u : State} {q : Probe}
  {qs : List Probe} {t : Transition}

/-- A result that is allowed, measured while the bounds are apart. -/
structure Wide (p : Parameters) (R : State → Probe → Prop) (s : State) (q : Probe) : Prop where
  gap : p.step < s.upper - s.lower
  allowed : R s q

/-- A result that is allowed, measured once the bounds are close. -/
structure Close (p : Parameters) (R : State → Probe → Prop) (s : State) (q : Probe) : Prop where
  gap : s.upper - s.lower ≤ p.step
  allowed : R s q

theorem Run.close (h : Run p R s qs t) (hgap : s.upper - s.lower ≤ p.step) :
    Run p (Close p R) s qs t := by
  induction h with
  | last hq ha ht => exact .last ⟨hgap, hq⟩ ha ht
  | step hq ha _ ih => exact .step ⟨hgap, hq⟩ ha (ih (close_next hgap ha))

theorem Leg.close (h : Leg p R s qs u) (hgap : s.upper - s.lower ≤ p.step) :
    Leg p (Close p R) s qs u := by
  induction h with
  | rest => exact .rest
  | step hq ha _ ih => exact .step ⟨hgap, hq⟩ ha (ih (close_next hgap ha))

/-- A leg halves and then walks, if it gets that far. -/
theorem Leg.split (h : Leg p R s qs u) :
    ∃ bs ws m, qs = bs ++ ws ∧ Leg p (Wide p R) s bs m ∧ Leg p (Close p R) m ws u := by
  induction h with
  | rest => exact ⟨[], [], _, rfl, .rest, .rest⟩
  | @step s s' u q qs hq ha hl ih =>
    by_cases hgap : s.upper - s.lower ≤ p.step
    · exact ⟨[], q :: qs, s, rfl, .rest, (Leg.step hq ha hl).close hgap⟩
    · obtain ⟨bs, ws, m, rfl, hb, hw⟩ := ih
      exact ⟨q :: bs, ws, m, rfl, .step ⟨Nat.lt_of_not_le hgap, hq⟩ ha hb, hw⟩

/-- **A run halves and then walks.** -/
theorem Run.split (h : Run p R s qs t) (hs : s.Enclosed p) :
    ∃ bs ws m, qs = bs ++ ws ∧ Leg p (Wide p R) s bs m ∧ m.upper - m.lower ≤ p.step ∧
      Run p (Close p R) m ws t := by
  obtain ⟨rs, q, u, rfl, hl, hq, ha, ht⟩ := run_iff_leg.mp h
  have hgap : u.upper - u.lower ≤ p.step := by
    rcases (hl.enclosed hs).end_cases ha ht with ⟨_, hgap, _⟩ | ⟨_, hgap, _⟩ <;> exact hgap
  obtain ⟨bs, ws, m, rfl, hb, hw⟩ := hl.split
  have hm : m.upper - m.lower ≤ p.step := by
    cases hw with
    | rest => exact hgap
    | step hq => exact hq.gap
  exact ⟨bs, ws ++ [q], m, List.append_assoc .., hb, hm,
    run_iff_leg.mpr ⟨ws, q, u, rfl, hw, ⟨hgap, hq⟩, ha, ht⟩⟩

/-! ## Halving -/

/-- While the bounds are apart, the candidate lies above the lower one. -/
def Poised (p : Parameters) (s : State) : Prop :=
  p.step < s.upper - s.lower → s.lower < s.current

theorem poised_initial (p : Parameters) : Poised p (State.initial p) := by
  intro hgap
  have hgap : p.step < p.band.high - p.band.low := hgap
  show p.band.low < p.band.high
  omega

/-- Every step poises the search: a gap that is wider than a step is two at least, so its half is
not rounded away. -/
theorem poised_next (hp : 0 < p.step) (ha : s.advance p q = .proceed s') : Poised p s' := by
  intro hgap
  cases State.move_of_advance ha with
  | raise =>
    have hgap : p.step < s.upper - s.current := hgap
    show s.current < s.current + (s.upper - s.current) / 2
    omega
  | sink =>
    have hgap : p.step < s.current - s.lower := hgap
    show s.lower < s.lower + (s.current - s.lower) / 2
    omega
  | descend _ hclose =>
    exact absurd (close_next hclose ha) (Nat.not_le_of_lt hgap)

/-- Halving raises the lower bound by every clean result, and by nothing else. -/
theorem Leg.lower_lt_iff (hp : 0 < p.step) {m : State} (h : Leg p (Wide p R) s qs m)
    (hs : Poised p s) :
    s.lower ≤ m.lower ∧ (s.lower < m.lower ↔ ∃ q ∈ qs, q.isClean = true) := by
  induction h with
  | rest => simp
  | step hq ha _ ih =>
    obtain ⟨hle, hiff⟩ := ih (poised_next hp ha)
    cases State.move_of_advance ha with
    | raise hc =>
      have hlt := Nat.lt_of_lt_of_le (hs hq.gap) hle
      exact ⟨Nat.le_of_lt hlt, fun _ => ⟨_, List.mem_cons_self, hc⟩, fun _ => hlt⟩
    | sink hc =>
      refine ⟨hle, hiff.trans ?_⟩
      simp [hc]
    | descend _ hclose => exact absurd hclose (Nat.not_le_of_lt hq.gap)

/-! ## Walking -/

/-- A walk that finds no clean candidate is the only one that ends at the floor. -/
theorem Run.failed_of_floorReached (h : Run p (Close p R) s qs t) (hs : s.Enclosed p)
    (ht : Termination.ofTransition? p t = some .floorReached) :
    ∀ q ∈ qs, q.isClean = false := by
  induction h with
  | last hq ha hterm =>
    intro r hr
    rcases List.mem_singleton.mp hr with rfl
    rcases hs.end_cases ha hterm with ⟨_, _, rfl⟩ | ⟨hc, _⟩
    · rw [Termination.ofTransition?] at ht
      split at ht <;> exact absurd ht (by simp)
    · exact hc
  | step hq ha _ ih =>
    intro r hr
    rcases List.mem_cons.mp hr with rfl | hr
    · cases State.move_of_advance ha with
      | raise _ hwide => exact absurd hq.gap (Nat.not_le_of_lt hwide)
      | sink hc => exact hc
      | descend hc => exact hc
    · exact ih (hs.next ha) ht r hr

end SafeClock.Search
