import Mathlib.Order.Bounds.Basic
import SafeClock.Frequency

/-!
# The grid below a frequency

`Parameters.snap` rounds down onto the grid of `step` hertz that starts at the floor of the band.
What a search recommends is such a grid point, so its distance from the last measured candidate is
the distance `snap` rounds away: less than one step, and never past the floor.

> **the floor on the grid**: `p.snap hz` is the greatest grid point that is not above `hz`, and the
> floor of the band where `hz` is below it (`isGreatest_snap`).

Without a step there is no grid, and a frequency is left as it is from the floor on.
-/

set_option autoImplicit false

namespace SafeClock.Parameters

variable {p : Parameters} {hz : Nat}

theorem snap_eq (hp : 0 < p.step) (hz : Nat) :
    p.snap hz = p.band.low + (hz - p.band.low) / p.step * p.step := by
  rw [snap, if_neg (Nat.pos_iff_ne_zero.mp hp)]

theorem low_le_snap (hp : 0 < p.step) (hz : Nat) : p.band.low ≤ p.snap hz := by
  rw [snap_eq hp]
  exact Nat.le_add_right _ _

theorem snap_le (hp : 0 < p.step) (h : p.band.low ≤ hz) : p.snap hz ≤ hz := by
  have hd := Nat.div_mul_le_self (hz - p.band.low) p.step
  rw [snap_eq hp]
  omega

theorem lt_snap_add_step (hp : 0 < p.step) (hz : Nat) : hz < p.snap hz + p.step := by
  have hd := Nat.lt_div_mul_add (a := hz - p.band.low) hp
  rw [snap_eq hp]
  omega

/-! ## The grid as a set -/

/-- The grid points: the floor of the band and any number of steps above it. -/
def grid (p : Parameters) : Set Nat :=
  {g | ∃ i, g = p.band.low + i * p.step}

theorem snap_of_step_eq_zero (hp : p.step = 0) (hz : Nat) : p.snap hz = max hz p.band.low := by
  rw [snap, if_pos hp]
  omega

theorem snap_mem_grid (hp : 0 < p.step) (hz : Nat) : p.snap hz ∈ p.grid :=
  ⟨_, snap_eq hp hz⟩

theorem snap_le_max (hp : 0 < p.step) (hz : Nat) : p.snap hz ≤ max hz p.band.low := by
  have hd := Nat.div_mul_le_self (hz - p.band.low) p.step
  rw [snap_eq hp]
  omega

theorem le_snap_of_mem_grid {g : Nat} (hp : 0 < p.step) (hg : g ∈ p.grid)
    (hle : g ≤ max hz p.band.low) : g ≤ p.snap hz := by
  obtain ⟨i, rfl⟩ := hg
  have hi : i * p.step ≤ hz - p.band.low := by omega
  have hsteps : i ≤ (hz - p.band.low) / p.step := (Nat.le_div_iff_mul_le hp).mpr hi
  rw [snap_eq hp]
  exact Nat.add_le_add_left (Nat.mul_le_mul_right p.step hsteps) p.band.low

/-- **The floor on the grid.** -/
theorem isGreatest_snap (hp : 0 < p.step) (hz : Nat) :
    IsGreatest {g | g ∈ p.grid ∧ g ≤ max hz p.band.low} (p.snap hz) :=
  ⟨⟨snap_mem_grid hp hz, snap_le_max hp hz⟩, fun _ h => le_snap_of_mem_grid hp h.1 h.2⟩

theorem snap_mono {a b : Nat} (h : a ≤ b) : p.snap a ≤ p.snap b := by
  rcases Nat.eq_zero_or_pos p.step with hp | hp
  · rw [snap_of_step_eq_zero hp, snap_of_step_eq_zero hp]
    omega
  · exact le_snap_of_mem_grid hp (snap_mem_grid hp a) (Nat.le_trans (snap_le_max hp a) (by omega))

/-- A frequency that has been rounded is not rounded any further. -/
theorem snap_snap (p : Parameters) (hz : Nat) : p.snap (p.snap hz) = p.snap hz := by
  rcases Nat.eq_zero_or_pos p.step with hp | hp
  · rw [snap_of_step_eq_zero hp, snap_of_step_eq_zero hp]
    omega
  · refine Nat.le_antisymm (snap_le hp (low_le_snap hp hz)) ?_
    exact le_snap_of_mem_grid hp (snap_mem_grid hp hz) (Nat.le_max_left _ _)

end SafeClock.Parameters
