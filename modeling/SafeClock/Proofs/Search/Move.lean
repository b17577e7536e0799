import SafeClock.Search.State

/-!
# What one measurement does to a search

`State.advance` branches on the result and on the gap between the bounds. `Move` is that branching
as a relation, one constructor per way out with everything that holds there. `State.move` says that
`advance` follows it, and `Move.advance_eq` that it can be followed in no other way. No later file
opens `advance`: what a step keeps is read off the constructors.

The second half is the one invariant that every fact about a run starts from:

> **the bounds enclose the candidate**: `low ≤ lower ≤ current ≤ upper ≤ highestUnsafe ≤ high`.

It makes the ceiling branch of `advance` dead code (`State.Enclosed.no_ceiling`).
-/

set_option autoImplicit false

namespace SafeClock

namespace Search

variable {p : Parameters} {s s' : State} {q : Probe} {t : Transition}

namespace State

theorem inBisection_iff : s.inBisection p = true ↔ p.step < s.upper - s.lower := by
  simp [inBisection]

/-- The unsafe frequency to remember after a measurement that failed. -/
def noted (s : State) (q : Probe) : Nat :=
  if q.isIntermittent then s.current else s.highestUnsafe

end State

/-- One measurement, way out by way out. -/
inductive Move (p : Parameters) (s : State) (q : Probe) : Transition → Prop
  /-- Clean while the bounds are apart. -/
  | raise (hq : q.isClean = true) (hgap : p.step < s.upper - s.lower)
      (hmid : s.current + (s.upper - s.current) / 2 ≤ p.band.high) :
      Move p s q (.proceed
        { s with
          current := s.current + (s.upper - s.current) / 2
          lower := s.current
          iteration := s.iteration + 1 })
  /-- Clean while the bounds are apart, with the half-way point above the band. -/
  | ceiling (hq : q.isClean = true) (hgap : p.step < s.upper - s.lower)
      (hmid : p.band.high < s.current + (s.upper - s.current) / 2) :
      Move p s q (.exhausted .ceiling
        { s with current := p.band.high, lower := s.current, iteration := s.iteration + 1 })
  /-- Clean with the bounds close. -/
  | settle (hq : q.isClean = true) (hgap : s.upper - s.lower ≤ p.step) :
      Move p s q (.converged { s with iteration := s.iteration + 1 })
  /-- Failed while the bounds are apart. -/
  | sink (hq : q.isClean = false) (hgap : p.step < s.upper - s.lower) :
      Move p s q (.proceed
        { s with
          current := s.lower + (s.current - s.lower) / 2
          upper := s.current
          highestUnsafe := s.noted q
          iteration := s.iteration + 1 })
  /-- Failed with the bounds close, and a whole step down stays in the band. -/
  | descend (hq : q.isClean = false) (hgap : s.upper - s.lower ≤ p.step)
      (hfit : p.step + p.band.low ≤ s.current) :
      Move p s q (.proceed
        { s with
          current := s.current - p.step
          lower := max (s.current - p.step - p.step) p.band.low
          upper := s.current - p.step
          highestUnsafe := s.noted q
          iteration := s.iteration + 1 })
  /-- Failed with the bounds close, and a step down leaves the band. -/
  | floor (hq : q.isClean = false) (hgap : s.upper - s.lower ≤ p.step)
      (hfit : s.current < p.step + p.band.low) :
      Move p s q (.exhausted .floor
        { s with
          current := p.band.low
          highestUnsafe := s.noted q
          iteration := s.iteration + 1 })

/-- The guards of the ways out leave no gap. -/
theorem exists_move (p : Parameters) (s : State) (q : Probe) : ∃ t, Move p s q t := by
  cases hq : q.isClean with
  | true =>
    by_cases hgap : p.step < s.upper - s.lower
    · by_cases hmid : p.band.high < s.current + (s.upper - s.current) / 2
      · exact ⟨_, .ceiling hq hgap hmid⟩
      · exact ⟨_, .raise hq hgap (Nat.le_of_not_lt hmid)⟩
    · exact ⟨_, .settle hq (Nat.le_of_not_lt hgap)⟩
  | false =>
    by_cases hgap : p.step < s.upper - s.lower
    · exact ⟨_, .sink hq hgap⟩
    · by_cases hfit : p.step + p.band.low ≤ s.current
      · exact ⟨_, .descend hq (Nat.le_of_not_lt hgap) hfit⟩
      · exact ⟨_, .floor hq (Nat.le_of_not_lt hgap) (Nat.lt_of_not_le hfit)⟩

/-- And they do not overlap: a move is the one that `advance` makes. -/
theorem Move.advance_eq (h : Move p s q t) : s.advance p q = t := by
  cases h with
  | raise hq hgap hmid =>
    simp [State.advance, State.inBisection, State.bisectUp, hq, hgap, Nat.not_lt_of_le hmid]
  | ceiling hq hgap hmid =>
    simp [State.advance, State.inBisection, State.bisectUp, hq, hgap, hmid]
  | settle hq hgap =>
    simp [State.advance, State.inBisection, hq, Nat.not_lt_of_le hgap]
  | sink hq hgap =>
    cases hi : q.isIntermittent <;>
      simp [State.advance, State.inBisection, State.bisectDown, State.noted, hq, hi, hgap]
  | descend hq hgap hfit =>
    have hd : p.step ≤ s.current ∧ p.band.low ≤ s.current - p.step := by omega
    cases hi : q.isIntermittent <;>
      simp [State.advance, State.inBisection, State.stepDown, State.noted, hq, hi, hd,
        Nat.not_lt_of_le hgap]
  | floor hq hgap hfit =>
    have hd : ¬(p.step ≤ s.current ∧ p.band.low ≤ s.current - p.step) := by omega
    cases hi : q.isIntermittent <;>
      simp [State.advance, State.inBisection, State.stepDown, State.noted, hq, hi, hd,
        Nat.not_lt_of_le hgap]

/-- **`advance` makes a move**, and only one. -/
theorem State.move (p : Parameters) (s : State) (q : Probe) : Move p s q (s.advance p q) := by
  obtain ⟨t, ht⟩ := exists_move p s q
  rw [ht.advance_eq]
  exact ht

theorem State.move_of_advance (h : s.advance p q = t) : Move p s q t :=
  h ▸ s.move p q

/-- Every way out counts the measurement. -/
theorem Move.iteration_eq (h : Move p s q t) : t.state.iteration = s.iteration + 1 := by
  cases h <;> rfl

theorem isIntermittent_of_isClean (h : q.isClean = true) : q.isIntermittent = false := by
  simp only [Probe.isClean, beq_iff_eq] at h
  simp [Probe.isIntermittent, h]

/-- Every way out remembers the measurement, if it is to be remembered. -/
theorem Move.highestUnsafe_eq (h : Move p s q t) : t.state.highestUnsafe = s.noted q := by
  cases h with
  | raise hc | ceiling hc | settle hc =>
    rw [State.noted, isIntermittent_of_isClean hc]
    rfl
  | sink | descend | floor => rfl

/-- Bounds that are close stay close: a step down sets them a step apart, or less at the floor. -/
theorem close_next (hgap : s.upper - s.lower ≤ p.step) (ha : s.advance p q = .proceed s') :
    s'.upper - s'.lower ≤ p.step := by
  cases State.move_of_advance ha with
  | raise _ hwide => omega
  | sink _ hwide => omega
  | descend =>
    show s.current - p.step - max (s.current - p.step - p.step) p.band.low ≤ p.step
    omega

/-! ## The word for an end -/

namespace Termination

variable {termination : Termination}

theorem ofTransition?_eq_none_iff : ofTransition? p t = none ↔ ∃ s, t = .proceed s := by
  cases t with
  | proceed s => simp [ofTransition?]
  | converged s => simp only [ofTransition?]; split <;> simp
  | exhausted boundary s => cases boundary <;> simp [ofTransition?]

theorem isTerminal_of_ofTransition? (h : ofTransition? p t = some termination) :
    t.isTerminal = true := by
  cases t with
  | proceed s => simp [ofTransition?] at h
  | converged s => rfl
  | exhausted boundary s => rfl

/-- No transition ends a search by abortion. -/
theorem ne_aborted_of_ofTransition? (h : ofTransition? p t = some termination) :
    termination ≠ .aborted := by
  rintro rfl
  cases t with
  | proceed s => simp [ofTransition?] at h
  | converged s =>
    rw [ofTransition?] at h
    split at h <;> simp at h
  | exhausted boundary s => cases boundary <;> simp [ofTransition?] at h

end Termination

/-! ## The bounds enclose the candidate -/

namespace State

/-- The bounds lie in the band in their order, with the candidate between them. -/
structure Enclosed (p : Parameters) (s : State) : Prop where
  low_le_lower : p.band.low ≤ s.lower
  lower_le_current : s.lower ≤ s.current
  current_le_upper : s.current ≤ s.upper
  upper_le_unsafe : s.upper ≤ s.highestUnsafe
  unsafe_le_high : s.highestUnsafe ≤ p.band.high

theorem enclosed_initial (hp : p.Valid) : (initial p).Enclosed p :=
  ⟨Nat.le_refl _, hp.1, Nat.le_refl _, Nat.le_refl _, Nat.le_refl _⟩

namespace Enclosed

theorem low_le_current (h : s.Enclosed p) : p.band.low ≤ s.current :=
  Nat.le_trans h.low_le_lower h.lower_le_current

theorem current_le_unsafe (h : s.Enclosed p) : s.current ≤ s.highestUnsafe :=
  Nat.le_trans h.current_le_upper h.upper_le_unsafe

theorem current_le_high (h : s.Enclosed p) : s.current ≤ p.band.high :=
  Nat.le_trans h.current_le_unsafe h.unsafe_le_high

/-- Whatever is remembered lies between the candidate and what was remembered before. -/
theorem noted_mem (h : s.Enclosed p) (q : Probe) :
    s.current ≤ s.noted q ∧ s.noted q ≤ s.highestUnsafe := by
  unfold noted
  split
  · exact ⟨Nat.le_refl _, h.current_le_unsafe⟩
  · exact ⟨h.current_le_unsafe, Nat.le_refl _⟩

/-- A half-way point above the band needs an upper bound above it. -/
theorem no_ceiling (h : s.Enclosed p) {u : State} :
    s.advance p q ≠ .exhausted .ceiling u := by
  intro ha
  have hcu := h.current_le_upper
  have huh := Nat.le_trans h.upper_le_unsafe h.unsafe_le_high
  cases move_of_advance ha with
  | ceiling _ _ hmid => omega

/-- **Every step keeps the bounds around the candidate.** -/
theorem next (h : s.Enclosed p) (ha : s.advance p q = .proceed s') : s'.Enclosed p := by
  obtain ⟨hn₁, hn₂⟩ := h.noted_mem q
  obtain ⟨hlow, hlc, hcu, huu, hhigh⟩ := h
  cases move_of_advance ha with
  | raise _ _ _ => constructor <;> simp only <;> omega
  | sink _ _ => constructor <;> simp only <;> omega
  | descend _ _ hfit => constructor <;> simp only <;> omega

/-- **Two ways to end**: clean with the bounds close, or failed with no step left above the
floor. -/
theorem end_cases (h : s.Enclosed p) (ha : s.advance p q = t) (ht : t.isTerminal = true) :
    (q.isClean = true ∧ s.upper - s.lower ≤ p.step ∧
      t = .converged { s with iteration := s.iteration + 1 }) ∨
    (q.isClean = false ∧ s.upper - s.lower ≤ p.step ∧ s.current < p.step + p.band.low ∧
      t = .exhausted .floor
        { s with
          current := p.band.low
          highestUnsafe := s.noted q
          iteration := s.iteration + 1 }) := by
  cases move_of_advance ha with
  | raise | sink | descend => exact absurd ht (by simp [Transition.isTerminal])
  | ceiling => exact absurd ha h.no_ceiling
  | settle hq hgap => exact Or.inl ⟨hq, hgap, rfl⟩
  | floor hq hgap hfit => exact Or.inr ⟨hq, hgap, hfit, rfl⟩

end Enclosed

end State

end Search

end SafeClock
