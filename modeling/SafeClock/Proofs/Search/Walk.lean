import SafeClock.Proofs.Search.Descent
import SafeClock.Proofs.Search.Halting

/-!
# The walk down

A run halves and then walks (`Run.split`). This file says what the walk measures, what it leaves in
the bounds, and where it ends:

> **a walk is a staircase**: each candidate lies one whole step below the one before, all of them
> but the last fail, and the last either passes, and is the answer, or lies less than a step above
> the floor, and the floor is the answer.

The walk starts from the candidate that the halving left, and pays no attention to the bounds it was
left with. Each step sets new ones, which say where the candidate is and not what was measured
(`Stepped`).
-/

set_option autoImplicit false

namespace SafeClock.Search

variable {p : Parameters} {s s' u : State} {q : Probe} {qs : List Probe} {t : Transition}

/-! ## One step of it -/

/-- The bounds that a step of the walk sets: the candidate above, and below it what another step
would leave, or the floor. -/
structure Stepped (p : Parameters) (s : State) : Prop where
  upper_eq : s.upper = s.current
  lower_eq : (s.lower : Int) = max ((s.current : Int) - p.step) p.band.low

/-- **The walk goes on after a failure only, and a whole step down.** -/
theorem step_of_close (hgap : s.upper - s.lower ≤ p.step) (ha : s.advance p q = .proceed s') :
    q.isClean = false ∧ s'.current + p.step = s.current ∧ Stepped p s' := by
  cases State.move_of_advance ha with
  | raise _ hwide | sink _ hwide => exact absurd hwide (Nat.not_lt_of_le hgap)
  | descend hq _ hfit =>
    -- A whole step fits above the floor, so nothing is cut off when it is subtracted.
    have hback : s.current - p.step + p.step = s.current := by omega
    refine ⟨hq, hback, rfl, ?_⟩
    show ((max (s.current - p.step - p.step) p.band.low : Nat) : Int) =
      max (((s.current - p.step : Nat) : Int) - p.step) p.band.low
    omega

/-! ## All the steps -/

/-- Results that lie a whole step below each other, from a frequency down. -/
def Stairs (step c : Nat) (qs : List Probe) : Prop :=
  ∀ i q, qs[i]? = some q → q.frequency + i * step = c

/-- A result on top of the stairs is a step above them. -/
theorem Stairs.cons {step c : Nat} (h : Stairs step c qs) (hq : q.frequency = c + step) :
    Stairs step (c + step) (q :: qs) := by
  intro i r hr
  cases i with
  | zero =>
    rw [List.getElem?_cons_zero, Option.some.injEq] at hr
    rw [← hr, hq, Nat.zero_mul, Nat.add_zero]
  | succ i =>
    rw [List.getElem?_cons_succ] at hr
    rw [Nat.succ_mul, ← Nat.add_assoc, h i r hr]

/-- The candidates of a walk are stairs, down to the one it ends on. -/
theorem Run.stairs (h : Run p (Close p Located) s qs t) : Stairs p.step s.current qs := by
  induction h with
  | last hq =>
    intro i r hr
    obtain ⟨rfl, rfl⟩ : i = 0 ∧ _ = r := by simpa [List.getElem?_singleton] using hr
    rw [hq.allowed, Nat.zero_mul, Nat.add_zero]
  | step hq ha _ ih =>
    obtain ⟨_, hdown, _⟩ := step_of_close hq.gap ha
    rw [← hdown]
    exact ih.cons (hq.allowed.trans hdown.symm)

/-- A walk that has not ended has seen nothing but failures. -/
theorem Leg.failed (h : Leg p (Close p Located) s qs u) : ∀ q ∈ qs, q.isClean = false := by
  induction h with
  | rest => intro r hr; exact absurd hr List.not_mem_nil
  | step hq ha _ ih =>
    intro r hr
    rcases List.mem_cons.mp hr with rfl | hr
    · exact (step_of_close hq.gap ha).1
    · exact ih r hr

/-- After a step of the walk the bounds are those of its last step. -/
theorem Leg.stepped (h : Leg p (Close p Located) s (q :: qs) u) : Stepped p u := by
  cases h with
  | step hq ha hl =>
    exact hl.keeps (fun _ _ _ _ hq ha => (step_of_close hq.gap ha).2.2)
      (step_of_close hq.gap ha).2.2

/-! ## A whole search -/

/-- A result of the walk: the bounds are close, and if the search goes on after it, then because it
failed, and to a candidate one step lower, with the bounds of a step. -/
structure Walking (p : Parameters) (s : State) (q : Probe) : Prop extends Close p Located s q where
  next : ∀ s', s.advance p q = .proceed s' →
    q.isClean = false ∧ s'.current + p.step = s.current ∧ Stepped p s'

theorem Close.walking (h : Close p Located s q) : Walking p s q :=
  ⟨h, fun _ ha => step_of_close h.gap ha⟩

/-- A search that went from the whole band by the results `bs` to the state `m`, the first with
close bounds, walked from there by `ws`, and ended with the result `q`. -/
structure TwoPhases (p : Parameters) (bs : List Probe) (m : State) (ws : List Probe) (q : Probe)
    (t : Transition) : Prop where
  /-- As long as it halves, the bounds are apart. -/
  halving : Leg p (Wide p Located) (State.initial p) bs m
  /-- Once they are close, they stay close. -/
  walking : Run p (Walking p) m (ws ++ [q]) t
  ended : t.state.inBisection p = false
  /-- The walk measures at `m`, and a whole step lower each time. -/
  stairs : Stairs p.step m.current (ws ++ [q])
  low_le : ∀ r ∈ ws ++ [q], p.band.low ≤ r.frequency
  failed : ∀ r ∈ ws, r.isClean = false
  /-- It converges on the last candidate, if that passed, and is exhausted at the floor if not. -/
  outcome : (q.isClean = true ∧ ∃ u, t = .converged u ∧ u.current = q.frequency) ∨
    (q.isClean = false ∧ q.frequency < p.band.low + p.step ∧
      ∃ u, t = .exhausted .floor u ∧ u.current = p.band.low)

/-- What a search measures lies in its band, ended or not. -/
theorem Leg.in_band (h : Leg p Located s qs u) (hs : s.Enclosed p) :
    ∀ q ∈ qs, p.band.low ≤ q.frequency ∧ q.frequency ≤ p.band.high := by
  induction h with
  | rest => exact fun q hq => absurd hq List.not_mem_nil
  | step hq ha _ ih =>
    refine List.forall_mem_cons.mpr ⟨?_, ih (hs.next ha)⟩
    rw [hq]
    exact ⟨hs.low_le_current, hs.current_le_high⟩

theorem Run.in_band (h : Run p Located s qs t) (hs : s.Enclosed p) :
    ∀ q ∈ qs, p.band.low ≤ q.frequency ∧ q.frequency ≤ p.band.high := by
  have hkeep := h.keeps (I := State.Enclosed p) (fun _ _ _ hs _ ha => hs.next ha) hs
  refine hkeep.forall_mem fun u q hq => ?_
  rw [hq.1]
  exact ⟨hq.2.low_le_current, hq.2.current_le_high⟩

/-- The result that ends a search is measured with the bounds close, and leaves them so. Either it
passed and is the answer, or a step down from it leaves the band, and the floor is. -/
theorem State.Enclosed.last_result (hu : u.Enclosed p) (hq : Located u q)
    (ha : u.advance p q = t) (ht : t.isTerminal = true) :
    t.state.inBisection p = false ∧
    ((q.isClean = true ∧ ∃ v, t = .converged v ∧ v.current = q.frequency) ∨
      (q.isClean = false ∧ q.frequency < p.band.low + p.step ∧
        ∃ v, t = .exhausted .floor v ∧ v.current = p.band.low)) := by
  have hfreq : q.frequency = u.current := hq
  rcases hu.end_cases ha ht with ⟨hc, hgap, rfl⟩ | ⟨hc, hgap, hfit, rfl⟩
  · exact ⟨decide_eq_false (Nat.not_lt_of_le hgap), Or.inl ⟨hc, _, rfl, hfreq.symm⟩⟩
  · rw [Nat.add_comm, ← hfreq] at hfit
    exact ⟨decide_eq_false (Nat.not_lt_of_le hgap), Or.inr ⟨hc, hfit, _, rfl, rfl⟩⟩

/-- **Every search halves and then walks**: whatever is measured drives it to an end, and it went
from the halving into the walk once and for all, to end there, where a candidate passes or where
there is no whole step left above the floor. -/
theorem two_phases_of_search (hp : p.Valid) :
    (∀ measure : Nat → State → Probe, (∀ i s, Located s (measure i s)) →
      ∃ fuel qs t, (State.drive p measure fuel 0 (State.initial p)).getLast? = some t ∧
        Run p Located (State.initial p) qs t) ∧
    ∀ qs t, Run p Located (State.initial p) qs t →
      ∃ bs m ws q, qs = bs ++ (ws ++ [q]) ∧ TwoPhases p bs m ws q t := by
  refine ⟨fun measure hm => exists_run hp hm, fun qs t h => ?_⟩
  have hs := State.enclosed_initial hp
  obtain ⟨bs, walk, m, rfl, hhalving, -, hwalk⟩ := h.split hs
  obtain ⟨ws, q, u, rfl, hleg, hq, ha, ht⟩ := run_iff_leg.mp hwalk
  have hu := hleg.enclosed (hhalving.enclosed hs)
  obtain ⟨hended, houtcome⟩ := hu.last_result hq.allowed ha ht
  have hwalking : Run p (Walking p) m (ws ++ [q]) t := hwalk.mono fun _ _ hq => hq.walking
  have hlow : ∀ r ∈ ws ++ [q], p.band.low ≤ r.frequency := fun r hr =>
    (h.in_band hs r (List.mem_append_right _ hr)).1
  exact ⟨bs, m, ws, q, rfl, hhalving, hwalking, hended, hwalk.stairs, hlow, hleg.failed, houtcome⟩

/-- A platform that passes at 200 Hz and fails from then on until it passes at 140 Hz: one result is
halving, and the walk takes the steps at 200 Hz, 180 Hz, 160 Hz and 140 Hz. -/
theorem two_phases_of_search_to_140 :
    let p : Parameters := ⟨⟨100, 200⟩, 20, 3⟩
    let qs : List Probe := [⟨200, 0, 3⟩, ⟨200, 1, 3⟩, ⟨180, 3, 3⟩, ⟨160, 3, 3⟩, ⟨140, 0, 3⟩]
    let t : Transition := .converged ⟨140, 120, 140, 200, 5⟩
    p.Valid ∧ Run p Located (State.initial p) qs t ∧
      ∃ bs m ws q, qs = bs ++ (ws ++ [q]) ∧ TwoPhases p bs m ws q t := by
  intro p qs t
  have hp : p.Valid := by decide
  have hrun : Run p Located (State.initial p) qs t := by
    refine .step rfl (show State.advance p _ _ = .proceed ⟨200, 200, 200, 200, 1⟩ by decide) ?_
    refine .step rfl (show State.advance p _ _ = .proceed ⟨180, 160, 180, 200, 2⟩ by decide) ?_
    refine .step rfl (show State.advance p _ _ = .proceed ⟨160, 140, 160, 200, 3⟩ by decide) ?_
    refine .step rfl (show State.advance p _ _ = .proceed ⟨140, 120, 140, 200, 4⟩ by decide) ?_
    exact .last rfl (by decide) rfl
  exact ⟨hp, hrun, (two_phases_of_search hp).2 qs t hrun⟩

end SafeClock.Search
