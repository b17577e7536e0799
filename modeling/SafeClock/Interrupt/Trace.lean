import SafeClock.Text.Lines
import SafeClock.Interrupt.Table

/-!
# Traces, and the verdict on them

A trace is the text a workload leaves behind. Lines that start with a given lead-in record the
dispatch of an interrupt, and the last word of such a line is its event. `verdict` walks the events
in order and stops at the first pair that the transition table does not allow.
-/

set_option autoImplicit false

namespace SafeClock

/-- What the events of a trace say about the order of interrupts. -/
inductive Verdict where
  /-- Every event may follow the one before it. -/
  | correct
  /-- The first pair of events that the table does not allow. -/
  | violation (previous next : Event)
deriving DecidableEq, Repr

/-- Whether the verdict names a pair. -/
def Verdict.isViolation : Verdict → Bool
  | .correct => false
  | .violation _ _ => true

namespace Trace

/-- The event that a line records, if it starts with the lead-in and holds a word at all. -/
def eventOfLine? (lead : List Char) (line : List Char) : Option Event :=
  if lead.isPrefixOf line then (Text.words line).getLast?.map String.ofList else none

/-- The events of a trace, in order. -/
def events (lead : String) (trace : String) : List Event :=
  (Text.lines trace.toList).filterMap (eventOfLine? lead.toList)

/-- The verdict on the events that follow a given one. -/
def verdictAfter (table : TransitionTable) : Event → List Event → Verdict
  | _, [] => .correct
  | previous, next :: rest =>
    if table.allows previous next then verdictAfter table next rest
    else .violation previous next

/-- The verdict on a list of events. -/
def verdict (table : TransitionTable) : List Event → Verdict
  | [] => .correct
  | first :: rest => verdictAfter table first rest

/-- How many events a trace records, and the verdict on them. -/
def check (lead : String) (table : TransitionTable) (trace : String) : Nat × Verdict :=
  let found := events lead trace
  (found.length, verdict table found)

end Trace

end SafeClock
