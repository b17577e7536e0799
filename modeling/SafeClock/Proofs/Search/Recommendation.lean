import SafeClock.Proofs.Grid
import SafeClock.Proofs.Search.Checked

/-!
# What is recommended

A report recommends the grid point below the last candidate. Grid points are computed in words, and
no parameters make that computation fault, not even those that no search accepts: those without a
step, or with an inverted band.

> **rounding down**: in words as in numbers, `snap` is the floor onto the grid
> (`snap_rounds_down`).
-/

set_option autoImplicit false

namespace SafeClock.Parameters

variable {p : Parameters} {hz : Nat}

/-- A grid point that is computed is a word again: it is not above the larger of two words. -/
theorem snap_lt (hlow : p.band.low < frequencyLimit) (hhz : hz < frequencyLimit) :
    p.snap hz < frequencyLimit := by
  have hmax : max hz p.band.low < frequencyLimit := Nat.max_lt.mpr ⟨hhz, hlow⟩
  rcases Nat.eq_zero_or_pos p.step with hp | hp
  · rwa [snap_of_step_eq_zero hp]
  · exact Nat.lt_of_le_of_lt (snap_le_max hp hz) hmax

theorem max_sub_snap_lt (hp : 0 < p.step) (hz : Nat) : max hz p.band.low - p.snap hz < p.step := by
  have hlow := low_le_snap hp hz
  have hnear := lt_snap_add_step hp hz
  omega

/-- **Rounding down.** For a floor and a frequency that are words, every sum and product on the way
to the grid point is a word, and so is the grid point. It is the greatest one that is not above the
frequency, or above the floor where the frequency is below that, and it is less than one step away.
Without a step nothing is rounded but a frequency below the floor. What was rounded once stays as it
is, and a higher frequency never has a lower grid point. -/
theorem snap_rounds_down (p : Parameters) (hz : Nat) (hlow : p.band.low < frequencyLimit)
    (hhz : hz < frequencyLimit) :
    p.snap? hz = some (p.snap hz) ∧ p.snap hz < frequencyLimit ∧
    (0 < p.step →
      IsGreatest {g | (∃ i, g = p.band.low + i * p.step) ∧ g ≤ max hz p.band.low} (p.snap hz) ∧
        max hz p.band.low - p.snap hz < p.step) ∧
    (p.step = 0 → p.snap hz = max hz p.band.low) ∧
    p.snap (p.snap hz) = p.snap hz ∧
    ∀ higher, hz ≤ higher → p.snap hz ≤ p.snap higher := by
  refine ⟨snap?_eq_some hlow hhz, snap_lt hlow hhz, fun hp => ⟨isGreatest_snap hp hz, ?_⟩,
    fun hp => snap_of_step_eq_zero hp hz, snap_snap p hz, fun higher => snap_mono⟩
  exact max_sub_snap_lt hp hz

/-- The last word lies 115 hertz above the last point of a grid that starts just below it. A step as
large as a word leaves only the floor. -/
theorem snap_rounds_down_at_last_word :
    let p : Parameters := ⟨⟨18446744073709551000, 18446744073709551615⟩, 250, 3⟩
    let q : Parameters := ⟨⟨18446744073709551000, 0⟩, 18446744073709551615, 3⟩
    let last := 18446744073709551615
    p.snap? last = some 18446744073709551500 ∧ last - 18446744073709551500 < p.step ∧
      q.snap? last = some 18446744073709551000 ∧ q.snap? 7 = some 18446744073709551000 := by
  intro p q last
  obtain ⟨hp, -, hgrid, -⟩ := snap_rounds_down p last (by decide) (by decide)
  obtain ⟨hq, -⟩ := snap_rounds_down q last (by decide) (by decide)
  obtain ⟨hfloor, -⟩ := snap_rounds_down q 7 (by decide) (by decide)
  have hpoint : p.snap last = 18446744073709551500 := by simp [snap, p, last]
  have hnone : q.snap last = 18446744073709551000 := by simp [snap, q, last]
  have hbelow : q.snap 7 = 18446744073709551000 := by simp [snap, q]
  refine ⟨hpoint ▸ hp, ?_, hnone ▸ hq, hbelow ▸ hfloor⟩
  exact hpoint ▸ (hgrid (by decide)).2

end SafeClock.Parameters
