import SafeClock.Search.State

/-!
# What a search has to say

A report is read off the last state a search reached. Its `highestSafe` is that state's candidate,
which was measured clean only if the search converged or reached the ceiling.
-/

set_option autoImplicit false

namespace SafeClock.Search

/-- The result of a search, or of the part of it that was run. -/
structure Report where
  /-- The frequency declared before the search. -/
  prior : Nat
  highestSafe : Nat
  highestUnsafe : Nat
  /-- The highest grid point that is not above `highestSafe`. -/
  recommended : Nat
  termination : Termination
  iterations : Nat
  parameters : Parameters
  /-- Every measured candidate, in order. -/
  probes : List Probe
deriving DecidableEq, Repr

namespace Report

/-- The report of a search that stands at a state. -/
def ofState (s : State) (termination : Termination) (p : Parameters) (prior : Nat)
    (probes : List Probe) : Report where
  prior := prior
  highestSafe := s.current
  highestUnsafe := s.highestUnsafe
  recommended := p.snap s.current
  termination := termination
  iterations := s.iteration
  parameters := p
  probes := probes

/-- Whether the search vouches for `highestSafe`. -/
def isConfirmedSafe (r : Report) : Bool :=
  match r.termination with
  | .converged | .ceilingReached => true
  | .floorReached | .aborted => false

end Report

end SafeClock.Search
