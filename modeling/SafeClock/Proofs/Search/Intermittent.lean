import SafeClock.Proofs.Search.Bounds
import SafeClock.Proofs.Search.Descent

/-!
# The frequency remembered as unsafe

Where some trials fail and others pass, the platform is at its limit. A search remembers one such
frequency. `advance` overwrites it with every intermittent result, without a look at what is there:

> **the last is the lowest**: what is remembered is the frequency of the most recent intermittent
> result, and no earlier one was as low.

The reason is that an intermittent result is a failure, and what comes after a failure is below it
(`Leg.below_failed`). With the ceiling for a start, the answer of a search is therefore never above
what is remembered, and a frequency that the search converges on is below it as soon as anything
intermittent was seen.
-/

set_option autoImplicit false

namespace SafeClock.Search

variable {p : Parameters} {s s' u : State} {q : Probe} {qs : List Probe} {t : Transition} {f : Nat}

/-- What there is to remember of some results: the ceiling as long as none is intermittent, and from
then on the last that is, which lies below all that were before it. -/
inductive Remembers (p : Parameters) : List Probe → Nat → Prop
  | ceiling {qs : List Probe} (hqs : ∀ q ∈ qs, q.isIntermittent = false) :
      Remembers p qs p.band.high
  | last {rs ss : List Probe} {q : Probe} (hq : q.isIntermittent = true)
      (hrs : ∀ r ∈ rs, r.isIntermittent = true → q.frequency < r.frequency)
      (hss : ∀ r ∈ ss, r.isIntermittent = false) : Remembers p (rs ++ q :: ss) q.frequency

theorem isClean_of_isIntermittent (h : q.isIntermittent = true) : q.isClean = false := by
  cases hc : q.isClean with
  | true => exact absurd h (by simp [isIntermittent_of_isClean hc])
  | false => rfl

/-- A result that is not intermittent leaves things as they are. -/
theorem Remembers.concat (h : Remembers p qs f) (hq : q.isIntermittent = false) :
    Remembers p (qs ++ [q]) f := by
  have hlast : ∀ r ∈ [q], r.isIntermittent = false := List.forall_mem_singleton.mpr hq
  cases h with
  | ceiling hqs => exact .ceiling (List.forall_mem_append.mpr ⟨hqs, hlast⟩)
  | last hr hrs hss =>
    rw [List.append_assoc, List.cons_append]
    exact .last hr hrs (List.forall_mem_append.mpr ⟨hss, hlast⟩)

/-- Once there is something to remember, it is one of the results. -/
theorem Remembers.exists_mem (h : Remembers p qs f) (hi : ∃ q ∈ qs, q.isIntermittent = true) :
    ∃ q ∈ qs, q.isIntermittent = true ∧ q.frequency = f := by
  cases h with
  | ceiling hqs =>
    obtain ⟨q, hq, hqi⟩ := hi
    exact absurd hqi (by simp [hqs q hq])
  | last hq => exact ⟨_, List.mem_append_right _ List.mem_cons_self, hq, rfl⟩

/-- **A step remembers what there is to remember**, the last one included. -/
theorem Leg.remembers_next (hp : p.Valid) (hl : Leg p Located (State.initial p) qs s)
    (h : Remembers p qs s.highestUnsafe) (hq : Located s q) (ha : s.advance p q = t) :
    Remembers p (qs ++ [q]) t.state.highestUnsafe := by
  rw [(State.move_of_advance ha).highestUnsafe_eq, State.noted]
  cases hi : q.isIntermittent with
  | false => exact h.concat hi
  | true =>
    have hbelow := (hl.below_failed hp.2.1 (State.enclosed_initial hp) (poised_initial p)).2
    rw [if_pos rfl, ← hq]
    refine .last hi (fun r hr hri => ?_) (by simp)
    rw [hq]
    exact hbelow r hr (isClean_of_isIntermittent hri)

theorem Leg.remembers (hp : p.Valid) (h : Leg p Located (State.initial p) qs u) :
    Remembers p qs u.highestUnsafe :=
  h.keeps_history (fun _ _ _ _ hl hr hq ha => hl.remembers_next hp hr hq ha)
    (.ceiling fun _ hq => absurd hq List.not_mem_nil)

/-- A search that converges after anything intermittent does so below what is remembered: the result
it ends on is clean, so all that was intermittent came before, and the candidate is below it. -/
theorem Run.lt_highestUnsafe (hp : p.Valid) (h : Run p Located (State.initial p) qs (.converged u))
    (hr : Remembers p qs u.highestUnsafe) (hi : ∃ q ∈ qs, q.isIntermittent = true) :
    u.current < u.highestUnsafe := by
  have hs := State.enclosed_initial hp
  obtain ⟨r, hmem, hri, hf⟩ := hr.exists_mem hi
  have hfail := isClean_of_isIntermittent hri
  obtain ⟨rs, q, s, rfl, hl, _, ha, ht⟩ := run_iff_leg.mp h
  rcases (hl.enclosed hs).end_cases ha ht with ⟨hclean, _, hu⟩ | ⟨_, _, _, hu⟩
  · have hcur : u.current = s.current := congrArg (fun t => t.state.current) hu
    rw [← hf, hcur]
    rcases List.mem_append.mp hmem with hmem | hmem
    · exact (hl.below_failed hp.2.1 hs (poised_initial p)).2 r hmem hfail
    · rcases List.mem_singleton.mp hmem with rfl
      exact absurd hclean (by simp [hfail])
  · exact absurd hu (by simp)

/-- **What is remembered as unsafe**, at every state of a search and at its end: the most recent
intermittent frequency, which is the lowest, or the ceiling. The answer is not above it, and an
answer that the search converges on is below it if anything was intermittent. -/
theorem remembers_of_search (hp : p.Valid) :
    (∀ qs s, Leg p Located (State.initial p) qs s → Remembers p qs s.highestUnsafe) ∧
    ∀ qs t, Run p Located (State.initial p) qs t →
      Remembers p qs t.state.highestUnsafe ∧ t.state.current ≤ t.state.highestUnsafe ∧
      ∀ u, t = .converged u → (∃ q ∈ qs, q.isIntermittent = true) →
        u.current < u.highestUnsafe := by
  refine ⟨fun qs s h => h.remembers hp, fun qs t h => ?_⟩
  have hends : Remembers p qs t.state.highestUnsafe ∧
      t.state.current ≤ t.state.highestUnsafe := by
    obtain ⟨rs, q, s, rfl, hl, hq, ha, ht⟩ := run_iff_leg.mp h
    have hs := hl.enclosed (State.enclosed_initial hp)
    exact ⟨hl.remembers_next hp (hl.remembers hp) hq ha, (hs.final_mem ha ht).2.2⟩
  refine ⟨hends.1, hends.2, ?_⟩
  rintro u rfl hi
  exact h.lt_highestUnsafe hp hends.1 hi

/-- Two trials of three fail at 175 Hz and all of them at 162 Hz: the search converges on 156 Hz and
remembers 175 Hz, not the 200 Hz that were intermittent before nor the 162 Hz that failed after. -/
theorem remembers_of_search_at_175 :
    let p : Parameters := ⟨⟨100, 200⟩, 20, 3⟩
    let qs : List Probe := [⟨200, 1, 3⟩, ⟨150, 0, 3⟩, ⟨175, 2, 3⟩, ⟨162, 3, 3⟩, ⟨156, 0, 3⟩]
    let u : State := ⟨156, 150, 162, 175, 5⟩
    p.Valid ∧ Run p Located (State.initial p) qs (.converged u) ∧ Remembers p qs 175 ∧
      156 < u.highestUnsafe := by
  intro p qs u
  have hp : p.Valid := by decide
  have hrun : Run p Located (State.initial p) qs (.converged u) := by
    refine .step rfl (show State.advance p _ _ = .proceed ⟨150, 100, 200, 200, 1⟩ by decide) ?_
    refine .step rfl (show State.advance p _ _ = .proceed ⟨175, 150, 200, 200, 2⟩ by decide) ?_
    refine .step rfl (show State.advance p _ _ = .proceed ⟨162, 150, 175, 175, 3⟩ by decide) ?_
    refine .step rfl (show State.advance p _ _ = .proceed ⟨156, 150, 162, 175, 4⟩ by decide) ?_
    exact .last rfl (by decide) rfl
  obtain ⟨hr, _, hlt⟩ := (remembers_of_search hp).2 qs _ hrun
  exact ⟨hp, hrun, hr, hlt u rfl ⟨⟨175, 2, 3⟩, by decide, rfl⟩⟩

end SafeClock.Search
