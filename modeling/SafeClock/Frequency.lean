/-!
# Frequencies, and what a search is asked to do

A frequency is a whole number of hertz. A search looks inside one `Band`, moves on a grid of `step`
hertz that starts at the floor of the band, and decides about a frequency from a fixed number of
trials. `Parameters` holds those four numbers; `Parameters.check` is the one place that says when
they make sense, and `Parameters.snap` is the grid.

> **the grid**: `p.snap hz` is the highest grid point that does not lie above `hz`, and the floor
> of the band for a frequency below it.
-/

set_option autoImplicit false

namespace SafeClock

/-- Frequencies are declared as 64-bit words. -/
def frequencyLimit : Nat := 18446744073709551616

/-- Counts of trials, runs and iterations are 32-bit words. -/
def countLimit : Nat := 4294967296

/-- The frequencies a search may visit, both ends included. -/
structure Band where
  low : Nat
  high : Nat
deriving DecidableEq, Repr

namespace Band

/-- The band with the given ends, if they are in order. -/
def ordered? (low high : Nat) : Option Band :=
  if low ≤ high then some ⟨low, high⟩ else none

/-- Whether a frequency lies in the band; no frequency lies in an inverted one. -/
def contains (b : Band) (hz : Nat) : Bool :=
  b.low ≤ hz && hz ≤ b.high

theorem contains_iff {b : Band} {hz : Nat} : b.contains hz = true ↔ b.low ≤ hz ∧ hz ≤ b.high := by
  simp [contains]

end Band

/-- What a search is asked to do. -/
structure Parameters where
  band : Band
  /-- Granularity of the walk down and of the recommendation. -/
  step : Nat
  /-- Trials run at every candidate. -/
  trials : Nat
deriving DecidableEq, Repr

/-- Why parameters make no sense. -/
inductive ParameterError where
  | invertedBand (low high : Nat)
  | zeroStep
  | zeroTrials
deriving DecidableEq, Repr

/-- The text shown for a parameter error. -/
def ParameterError.message : ParameterError → String
  | .invertedBand low high =>
    s!"Invalid frequency range: low ({low}) must not exceed high ({high})"
  | .zeroStep => "Step must be positive"
  | .zeroTrials => "Measurements must be at least 1"

namespace Parameters

/-- Parameters a search can work with. -/
def Valid (p : Parameters) : Prop :=
  p.band.low ≤ p.band.high ∧ 0 < p.step ∧ 0 < p.trials

instance (p : Parameters) : Decidable p.Valid :=
  inferInstanceAs (Decidable (_ ∧ _))

/-- Refuses parameters that make no sense. Of several faults the band is named first, then the
step, then the trials. -/
def check (p : Parameters) : Except ParameterError Unit :=
  if p.band.high < p.band.low then .error (.invertedBand p.band.low p.band.high)
  else if p.step = 0 then .error .zeroStep
  else if p.trials = 0 then .error .zeroTrials
  else .ok ()

theorem check_eq_ok_iff (p : Parameters) : p.check = .ok () ↔ p.Valid := by
  unfold check Valid
  split
  · simp only [reduceCtorEq, false_iff]; omega
  · split
    · simp only [reduceCtorEq, false_iff]; omega
    · split
      · simp only [reduceCtorEq, false_iff]; omega
      · simp only [true_iff]; omega

/-- The highest grid point that is not above `hz`. A frequency below the band snaps up to its
floor, and with no step every frequency from the floor on is a grid point. -/
def snap (p : Parameters) (hz : Nat) : Nat :=
  let above := hz - p.band.low
  if p.step = 0 then p.band.low + above
  else p.band.low + above / p.step * p.step

end Parameters

end SafeClock
