import SafeClock.Proofs.Search.Halting

/-!
# What a search knows only sharpens

`State.Enclosed` says how the numbers of one state lie to each other. This file says how they change
from a state to the next, and what is left of the order once the search has ended:

> **the ceiling only comes down**: no step raises the upper bound or the frequency remembered as
> unsafe, and while the bounds are apart none lowers the lower bound.

The walk down does lower it. There the bounds are a step around the candidate and no longer say what
was measured.
-/

set_option autoImplicit false

namespace SafeClock.Search

variable {p : Parameters} {R : State → Probe → Prop} {s : State} {q : Probe} {qs : List Probe}
  {t : Transition} {k : Nat}

namespace State

/-- What a step may do to the numbers of a state. -/
structure Narrows (p : Parameters) (s s' : State) : Prop where
  upper_le : s'.upper ≤ s.upper
  unsafe_le : s'.highestUnsafe ≤ s.highestUnsafe
  lower_le : s.inBisection p = true → s.lower ≤ s'.lower
  iteration_eq : s'.iteration = s.iteration + 1

namespace Enclosed

/-- **Every step narrows**, the last one included. -/
theorem narrows (h : s.Enclosed p) (ha : s.advance p q = t) : s.Narrows p t.state := by
  have hunsafe := (h.noted_mem q).2
  have hcu := h.current_le_upper
  have hlc := h.lower_le_current
  cases move_of_advance ha with
  | raise | ceiling => exact ⟨Nat.le_refl _, Nat.le_refl _, fun _ => hlc, rfl⟩
  | settle => exact ⟨Nat.le_refl _, Nat.le_refl _, fun _ => Nat.le_refl _, rfl⟩
  | sink => exact ⟨hcu, hunsafe, fun _ => Nat.le_refl _, rfl⟩
  | descend _ hclose =>
    refine ⟨Nat.le_trans (Nat.sub_le _ _) hcu, hunsafe, fun hwide => ?_, rfl⟩
    exact absurd (inBisection_iff.mp hwide) (Nat.not_lt_of_le hclose)
  | floor => exact ⟨Nat.le_refl _, hunsafe, fun _ => Nat.le_refl _, rfl⟩

/-- The answer lies in the band, and not above what is remembered as unsafe. -/
theorem final_mem (h : s.Enclosed p) (ha : s.advance p q = t) (ht : t.isTerminal = true) :
    p.band.low ≤ t.state.current ∧ t.state.current ≤ p.band.high ∧
      t.state.current ≤ t.state.highestUnsafe := by
  have hlow := h.low_le_current
  have hhigh := h.current_le_high
  rcases h.end_cases ha ht with ⟨_, _, rfl⟩ | ⟨_, _, _, rfl⟩
  · exact ⟨hlow, hhigh, h.current_le_unsafe⟩
  · exact ⟨Nat.le_refl _, Nat.le_trans hlow hhigh, Nat.le_trans hlow (h.noted_mem q).1⟩

end Enclosed

/-- Every frequency of a state fits its word. -/
structure Fits (s : State) : Prop where
  current_lt : s.current < frequencyLimit
  lower_lt : s.lower < frequencyLimit
  upper_lt : s.upper < frequencyLimit
  unsafe_lt : s.highestUnsafe < frequencyLimit

theorem Enclosed.fits (h : s.Enclosed p) (hw : p.band.high < frequencyLimit) : s.Fits := by
  have hunsafe := Nat.lt_of_le_of_lt h.unsafe_le_high hw
  have hupper := Nat.lt_of_le_of_lt h.upper_le_unsafe hunsafe
  have hcurrent := Nat.lt_of_le_of_lt h.current_le_upper hupper
  exact ⟨hcurrent, Nat.lt_of_le_of_lt h.lower_le_current hcurrent, hupper, hunsafe⟩

/-- A band of words is searched in words: where a step leads, nothing is above the ceiling. -/
theorem Enclosed.fits_next (h : s.Enclosed p) (hw : p.band.high < frequencyLimit)
    (ha : s.advance p q = t) : t.state.Fits := by
  by_cases ht : t.isTerminal = true
  · obtain ⟨hcurrent, hlower, hupper, hunsafe⟩ := h.fits hw
    rcases h.end_cases ha ht with ⟨_, _, rfl⟩ | ⟨_, _, _, rfl⟩
    · exact ⟨hcurrent, hlower, hupper, hunsafe⟩
    · exact ⟨Nat.lt_of_le_of_lt h.low_le_current hcurrent, hlower, hupper,
        Nat.lt_of_le_of_lt (h.noted_mem q).2 hunsafe⟩
  · cases t with
    | proceed s' => exact (h.next ha).fits hw
    | converged | exhausted => exact absurd rfl ht

end State

end SafeClock.Search
