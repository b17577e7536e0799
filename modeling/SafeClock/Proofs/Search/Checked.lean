import Mathlib.Tactic.MkIffOfInductiveProp
import SafeClock.Proofs.Search.Bounds
import SafeClock.Search.Word

/-!
# No step of a search faults

`State.advance?` asks for more than `State.advance`: that the result be one of the candidate, and
that every number fit its word. `State.Faultless` lists what it asks for. The step of the parameters
is not in the list. It may be as large as a word gets: it is subtracted only where it fits
(`State.stepDown`), and multiplied only by what it was divided into.

> **no step faults**: where the bounds enclose the candidate, the ceiling is a word and the count
> has room for one more, `advance?` has a value, and it is that of `advance`.

So the count is all that is left to ask for on the way, and a driven search has a value exactly as
long as its transitions can be counted (`drive?_eq`).
-/

set_option autoImplicit false

namespace SafeClock

theorem word?_eq_some_iff {limit n m : Nat} : word? limit n = some m ↔ n < limit ∧ n = m := by
  rw [word?, Option.ite_none_right_eq_some, Option.some.injEq]

theorem difference?_eq_some_iff {a b d : Nat} : difference? a b = some d ↔ b ≤ a ∧ a - b = d := by
  rw [difference?, Option.ite_none_right_eq_some, Option.some.injEq]

namespace Parameters

/-- **The grid has no fault**: its point is not above the frequency, or is the floor. -/
theorem snap?_eq_some {p : Parameters} {hz : Nat} (hlow : p.band.low < frequencyLimit)
    (hhz : hz < frequencyLimit) : p.snap? hz = some (p.snap hz) := by
  have hdown : (hz - p.band.low) / p.step * p.step ≤ hz - p.band.low := Nat.div_mul_le_self _ _
  unfold snap? snap
  by_cases hstep : p.step = 0
  · simp only [hstep, if_true]
    exact word?_eq_some_iff.mpr ⟨by omega, Nat.add_comm _ _⟩
  · simp only [hstep, if_false]
    refine Option.bind_eq_some_iff.mpr ⟨_, word?_eq_some_iff.mpr ⟨by omega, rfl⟩, ?_⟩
    exact word?_eq_some_iff.mpr ⟨by omega, Nat.add_comm _ _⟩

end Parameters

namespace Search

variable {p : Parameters} {s : State} {q : Probe} {t : Transition}

namespace State

/-! ## What a step asks for -/

theorem inBisection?_eq_some_iff {wide : Bool} :
    s.inBisection? p = some wide ↔ s.lower ≤ s.upper ∧ s.inBisection p = wide := by
  simp [inBisection?, inBisection, Option.bind_eq_some_iff, difference?_eq_some_iff, and_assoc]

theorem bisectDown?_eq_some_iff :
    s.bisectDown? = some t ↔
      (s.lower ≤ s.current ∧ s.lower + (s.current - s.lower) / 2 < frequencyLimit) ∧
        s.bisectDown = t := by
  simp [bisectDown?, bisectDown, Option.bind_eq_some_iff, difference?_eq_some_iff,
    word?_eq_some_iff, and_assoc]

theorem bisectUp?_eq_some_iff :
    s.bisectUp? p = some t ↔
      (s.current ≤ s.upper ∧ s.current + (s.upper - s.current) / 2 < frequencyLimit) ∧
        s.bisectUp p = t := by
  simp [bisectUp?, bisectUp, Option.bind_eq_some_iff, difference?_eq_some_iff,
    word?_eq_some_iff, and_assoc]

/-- Everything that is checked when a state takes in a result. -/
@[mk_iff]
structure Faultless (p : Parameters) (s : State) (q : Probe) : Prop where
  frequency_eq : q.frequency = s.current
  iteration_lt : s.iteration + 1 < countLimit
  lower_le_upper : s.lower ≤ s.upper
  /-- The half-way point up. -/
  up : q.isClean = true → s.inBisection p = true →
    s.current ≤ s.upper ∧ s.current + (s.upper - s.current) / 2 < frequencyLimit
  /-- The half-way point down. -/
  down : q.isClean = false → s.inBisection p = true →
    s.lower ≤ s.current ∧ s.lower + (s.current - s.lower) / 2 < frequencyLimit

/-- **What a step asks for is all it needs.** -/
theorem advance?_eq_some_iff :
    s.advance? p q = some t ↔ s.Faultless p q ∧ s.advance p q = t := by
  rw [faultless_iff]
  cases hq : q.isClean <;> cases hwide : s.inBisection p <;> cases hi : q.isIntermittent <;>
    simp [advance?, advance, hq, hwide, hi, Option.bind_eq_some_iff, word?_eq_some_iff,
      inBisection?_eq_some_iff, bisectDown?_eq_some_iff, bisectUp?_eq_some_iff, and_assoc]

/-! ## What a state of a search has -/

/-- **No step faults.** Bounds that enclose the candidate are in order, and a half-way point between
two of them is not above the ceiling. -/
theorem Enclosed.faultless (h : s.Enclosed p) (hhigh : p.band.high < frequencyLimit)
    (hcount : s.iteration + 1 < countLimit) (hq : q.frequency = s.current) :
    s.Faultless p q := by
  obtain ⟨hcurrent, hlower, hupper, -⟩ := h.fits hhigh
  have hlc := h.lower_le_current
  have hcu := h.current_le_upper
  refine ⟨hq, hcount, Nat.le_trans hlc hcu, fun _ _ => ⟨hcu, ?_⟩, fun _ _ => ⟨hlc, ?_⟩⟩
  · exact Nat.lt_of_le_of_lt (by omega) hupper
  · exact Nat.lt_of_le_of_lt (by omega) hcurrent

/-- **All a search has to ask for is room in the count.** -/
theorem Enclosed.advance?_eq (h : s.Enclosed p) (hhigh : p.band.high < frequencyLimit)
    (hq : q.frequency = s.current) :
    s.advance? p q = if s.iteration + 1 < countLimit then some (s.advance p q) else none := by
  split
  case isTrue hcount =>
    exact advance?_eq_some_iff.mpr ⟨h.faultless hhigh hcount hq, rfl⟩
  case isFalse hcount =>
    refine Option.eq_none_iff_forall_ne_some.mpr fun t ht => ?_
    exact hcount (advance?_eq_some_iff.mp ht).1.iteration_lt

/-- The first measurement after the last one that can be counted has no value. -/
example : (State.mk 150 100 200 200 4294967295).advance? ⟨⟨100, 200⟩, 50, 1⟩ ⟨150, 0, 1⟩ = none := by
  decide

end State

/-- **A driven search has a value as long as its results can be counted**, and it is that of
`drive`. -/
theorem drive?_eq {measure : Nat → State → Probe} (hhigh : p.band.high < frequencyLimit)
    (hm : ∀ i s, (measure i s).frequency = s.current) {fuel i : Nat} (hs : s.Enclosed p)
    (hcount : s.iteration < countLimit) :
    State.drive? p measure fuel i s =
      if s.iteration + (State.drive p measure fuel i s).length < countLimit then
        some (State.drive p measure fuel i s)
      else none := by
  induction fuel generalizing i s with
  | zero => exact (if_pos hcount).symm
  | succ fuel ih =>
    rw [State.drive?, hs.advance?_eq hhigh (hm i s)]
    by_cases hroom : s.iteration + 1 < countLimit
    · rw [if_pos hroom]
      rcases drive_cases p measure i s with ⟨s', ha, hd⟩ | ⟨t, ha, ht, hd⟩
      · -- The next state has counted one more, so the same number decides there.
        have hiter : s'.iteration = s.iteration + 1 := (State.move_of_advance ha).iteration_eq
        have hnext := ih (i := i + 1) (hs.next ha) (hiter ▸ hroom)
        have hlength : s'.iteration + (State.drive p measure fuel (i + 1) s').length =
            s.iteration + ((State.drive p measure fuel (i + 1) s').length + 1) := by omega
        rw [hd, List.length_cons, ← hlength, ha]
        simp only [Option.bind_eq_bind, Option.bind_some, hnext]
        split <;> rfl
      · rw [hd, List.length_singleton, if_pos hroom, ha]
        cases t with
        | proceed => exact absurd ht (by simp [Transition.isTerminal])
        | converged | exhausted => rfl
    · rw [if_neg hroom, if_neg]
      · rfl
      · rcases drive_cases p measure i s with ⟨s', _, hd⟩ | ⟨t, _, _, hd⟩ <;>
          rw [hd, List.length_cons] <;> omega

end Search

end SafeClock
