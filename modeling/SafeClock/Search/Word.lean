import SafeClock.Search.State

/-!
# The search in words

Frequencies and counts are words, and `State.advance` computes with numbers, which never run over.
`State.advance?` is the same step with nothing taken for granted: a sum or a product that leaves its
word, a difference that falls below zero and a result of another candidate than the one that was to
be measured have no value. The program ends there, as one that checks its arithmetic does.
`State.drive?` makes such steps one after the other, and `Parameters.snap?` is the grid.

The count of the measurements is the one word that a search by itself can run over: nothing in the
state keeps it below `countLimit`.
-/

set_option autoImplicit false

namespace SafeClock

/-- A number that has to fit a word. -/
def word? (limit n : Nat) : Option Nat :=
  if n < limit then some n else none

/-- A difference that has to be a number. -/
def difference? (a b : Nat) : Option Nat :=
  if b ≤ a then some (a - b) else none

/-- `snap`, in words. A frequency below the floor is cut off there, so the first difference needs no
check. -/
def Parameters.snap? (p : Parameters) (hz : Nat) : Option Nat := do
  let above := hz - p.band.low
  if p.step = 0 then word? frequencyLimit (above + p.band.low)
  else
    let down ← word? frequencyLimit (above / p.step * p.step)
    word? frequencyLimit (down + p.band.low)

namespace Search.State

/-- `inBisection`, in words. -/
def inBisection? (p : Parameters) (s : State) : Option Bool := do
  let gap ← difference? s.upper s.lower
  return p.step < gap

/-- `bisectDown`, in words. -/
def bisectDown? (s : State) : Option Transition := do
  let gap ← difference? s.current s.lower
  let middle ← word? frequencyLimit (s.lower + gap / 2)
  return .proceed { s with upper := s.current, current := middle }

/-- `bisectUp`, in words. -/
def bisectUp? (p : Parameters) (s : State) : Option Transition := do
  let gap ← difference? s.upper s.current
  let middle ← word? frequencyLimit (s.current + gap / 2)
  return if p.band.high < middle then
    .exhausted .ceiling { s with lower := s.current, current := p.band.high }
  else .proceed { s with lower := s.current, current := middle }

/-- `advance`, in words, for a result that has to be one of the candidate. -/
def advance? (p : Parameters) (s : State) (probe : Probe) : Option Transition := do
  guard (probe.frequency = s.current)
  let iteration ← word? countLimit (s.iteration + 1)
  let counted := { s with iteration := iteration }
  let wide ← s.inBisection? p
  if probe.isClean then
    if wide then counted.bisectUp? p else return .converged counted
  else
    let noted :=
      if probe.isIntermittent then { counted with highestUnsafe := s.current } else counted
    if wide then noted.bisectDown? else return noted.stepDown p

/-- `drive`, in words. A step that has no value leaves the whole search without one. -/
def drive? (p : Parameters) (measure : Nat → State → Probe) :
    (fuel : Nat) → (step : Nat) → State → Option (List Transition)
  | 0, _, _ => some []
  | fuel + 1, step, s => do
    match ← s.advance? p (measure step s) with
    | .proceed next => return .proceed next :: (← drive? p measure fuel (step + 1) next)
    | last => return [last]

end Search.State

end SafeClock
