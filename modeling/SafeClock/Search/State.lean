import SafeClock.Frequency

/-!
# The search, one measurement at a time

A search keeps two bounds and a candidate. While the bounds are more than a step apart it *bisects*:
a clean measurement raises the lower bound to the candidate, a failing one lowers the upper bound
to it, and the next candidate lies half way into the part that is left. Once the bounds are close
it *walks down* from the candidate in whole steps until a measurement is clean or the floor of the
band is passed.

`State.advance` takes one measurement in and says where to go from there. It is a function of the
state and the measurement alone: nothing is run and nothing is written here. It computes with
numbers; the same step in words is `State.advance?`.
-/

set_option autoImplicit false

namespace SafeClock

/-- What the trials at one frequency said. -/
structure Probe where
  frequency : Nat
  /-- Trials whose trace was in violation. -/
  errors : Nat
  /-- Trials run. -/
  total : Nat
deriving DecidableEq, Repr

namespace Probe

/-- No trial failed. -/
def isClean (p : Probe) : Bool := p.errors == 0

/-- Some trials failed, but not all. -/
def isIntermittent (p : Probe) : Bool := 0 < p.errors && p.errors < p.total

end Probe

namespace Search

/-- Where a search stands. -/
structure State where
  /-- The candidate to measure next; the answer, once the search has ended. -/
  current : Nat
  lower : Nat
  upper : Nat
  /-- The candidate that failed intermittently last; the ceiling of the band before any did. -/
  highestUnsafe : Nat
  /-- Measurements taken in so far. The program counts them in a word, and ends where that runs over
  (`State.advance?`). -/
  iteration : Nat
deriving DecidableEq, Repr

/-- An end of the band. -/
inductive Boundary where
  | floor
  | ceiling
deriving DecidableEq, Repr

/-- Where one measurement leads. -/
inductive Transition where
  /-- Measure the candidate of this state. -/
  | proceed (state : State)
  /-- The bounds are close and the candidate is clean. -/
  | converged (state : State)
  /-- The search ran off an end of the band. -/
  | exhausted (boundary : Boundary) (state : State)
deriving DecidableEq, Repr

namespace Transition

/-- The state a transition leads to. -/
def state : Transition → State
  | proceed s => s
  | converged s => s
  | exhausted _ s => s

/-- Whether the search ends here. -/
def isTerminal : Transition → Bool
  | proceed _ => false
  | converged _ => true
  | exhausted _ _ => true

end Transition

/-- How a search ended. -/
inductive Termination where
  /-- The boundary between safe and unsafe lies inside the band. -/
  | converged
  /-- The ceiling of the band is safe. -/
  | ceilingReached
  /-- The walk down passed the floor of the band. -/
  | floorReached
  /-- A tool failed before the search came to an end of its own. -/
  | aborted
deriving DecidableEq, Repr

namespace Termination

/-- The words shown for a termination. -/
def label : Termination → String
  | converged => "converged"
  | ceilingReached => "ceiling reached"
  | floorReached => "floor reached"
  | aborted => "aborted"

/-- How the search ended, if a transition ends it. A search that converges on the ceiling has
reached it. -/
def ofTransition? (p : Parameters) : Transition → Option Termination
  | .proceed _ => none
  | .converged s =>
    if p.band.high ≤ s.current then some ceilingReached else some converged
  | .exhausted .ceiling _ => some ceilingReached
  | .exhausted .floor _ => some floorReached

end Termination

namespace State

/-- The whole band is open, and the ceiling is tried first. -/
def initial (p : Parameters) : State where
  current := p.band.high
  lower := p.band.low
  upper := p.band.high
  highestUnsafe := p.band.high
  iteration := 0

/-- Whether the bounds are more than a step apart. -/
def inBisection (p : Parameters) (s : State) : Bool :=
  p.step < s.upper - s.lower

/-- A failing measurement while the bounds are apart: the candidate is the new upper bound. -/
def bisectDown (s : State) : Transition :=
  .proceed { s with upper := s.current, current := s.lower + (s.current - s.lower) / 2 }

/-- A clean measurement while the bounds are apart: the candidate is the new lower bound. -/
def bisectUp (p : Parameters) (s : State) : Transition :=
  let middle := s.current + (s.upper - s.current) / 2
  if p.band.high < middle then
    .exhausted .ceiling { s with lower := s.current, current := p.band.high }
  else .proceed { s with lower := s.current, current := middle }

/-- A failing measurement once the bounds are close: one step down, unless that leaves the band. -/
def stepDown (p : Parameters) (s : State) : Transition :=
  if p.step ≤ s.current ∧ p.band.low ≤ s.current - p.step then
    let lowered := s.current - p.step
    .proceed { s with
      current := lowered, upper := lowered, lower := max (lowered - p.step) p.band.low }
  else .exhausted .floor { s with current := p.band.low }

/-- Takes in the measurement of the current candidate. -/
def advance (p : Parameters) (s : State) (probe : Probe) : Transition :=
  let counted := { s with iteration := s.iteration + 1 }
  if probe.isClean then
    if s.inBisection p then counted.bisectUp p else .converged counted
  else
    let noted :=
      if probe.isIntermittent then { counted with highestUnsafe := s.current } else counted
    if s.inBisection p then noted.bisectDown else noted.stepDown p

/-- The transitions of a search that starts at a state, measured by a function of the step and the
state, until one is terminal or `fuel` of them are made. -/
def drive (p : Parameters) (measure : Nat → State → Probe) :
    (fuel : Nat) → (step : Nat) → State → List Transition
  | 0, _, _ => []
  | fuel + 1, step, s =>
    match s.advance p (measure step s) with
    | .proceed next => .proceed next :: drive p measure fuel (step + 1) next
    | last => [last]

end State

end Search

end SafeClock
