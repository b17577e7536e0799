import SafeClock.Log
import SafeClock.Tooling

/-!
# The bench a search works at

A search and a stress run touch the outside through four requests only: read the declared
frequency, declare another one, clean the workspace, run a workload. A `Bench` answers them, from
a state of its own that each answer may change, so that an answer may depend on everything that
was asked before. Nothing about a bench is assumed.

A `Ledger` is a bench's state together with the journal of a session: every request, in order,
with whether it was met, and every log record between them.

> **the journal is complete**: `Bench.ask` is the only way to put a request to a bench, and it
> adds exactly that request to the journal (`requests_ask`).
-/

set_option autoImplicit false

namespace SafeClock

/-- What may be asked of a bench. -/
inductive Request where
  | readFrequency
  | setFrequency (hz : Nat)
  | clean
  | run (application : String)
deriving DecidableEq, Repr

namespace Request

/-- What a request that is met is answered with: a frequency, nothing, or a trace. -/
abbrev Answer : Request → Type
  | readFrequency => Nat
  | setFrequency _ => Unit
  | clean => Unit
  | run _ => String

end Request

/-- A bench's answer to one request, and what it logged on the way. -/
structure Reply (α : Type) where
  outcome : Except ToolingError α
  records : List Log.Record := []

/-- Something that answers requests, from a state of its own. -/
structure Bench (σ : Type) where
  perform : (r : Request) → σ → Reply r.Answer × σ

/-- One entry of a journal. -/
inductive Entry where
  | asked (request : Request) (met : Bool)
  | logged (record : Log.Record)
deriving DecidableEq, Repr

namespace Entry

/-- The request of an entry, if it is one. -/
def request? : Entry → Option Request
  | asked r _ => some r
  | logged _ => none

/-- The log record of an entry, if it is one. -/
def record? : Entry → Option Log.Record
  | asked _ _ => none
  | logged r => some r

end Entry

/-- A bench's state, and the journal of the session at it. -/
structure Ledger (σ : Type) where
  bench : σ
  journal : Array Entry

namespace Ledger

variable {σ : Type}

/-- A ledger with nothing in its journal. -/
def fresh (s : σ) : Ledger σ := ⟨s, #[]⟩

/-- Adds a log record to the journal. -/
def log (level : Log.Level) (message : String) (l : Ledger σ) : Ledger σ :=
  { l with journal := l.journal.push (.logged ⟨level, message⟩) }

/-- The requests made, in order. -/
def requests (l : Ledger σ) : List Request := l.journal.toList.filterMap Entry.request?

/-- The records logged, in order. -/
def records (l : Ledger σ) : List Log.Record := l.journal.toList.filterMap Entry.record?

@[simp] theorem bench_log (level : Log.Level) (message : String) (l : Ledger σ) :
    (l.log level message).bench = l.bench := rfl

@[simp] theorem requests_log (level : Log.Level) (message : String) (l : Ledger σ) :
    (l.log level message).requests = l.requests := by
  simp [requests, log, Entry.request?]

end Ledger

namespace Bench

variable {σ : Type}

/-- Puts one request to the bench and writes it, and what the bench logged, into the journal. -/
def ask (b : Bench σ) (r : Request) (l : Ledger σ) :
    Except ToolingError r.Answer × Ledger σ :=
  let (reply, s) := b.perform r l.bench
  let met := match reply.outcome with
    | .ok _ => true
    | .error _ => false
  (reply.outcome,
    ⟨s, (l.journal ++ (reply.records.map Entry.logged).toArray).push (.asked r met)⟩)

theorem outcome_ask (b : Bench σ) (r : Request) (l : Ledger σ) :
    (b.ask r l).1 = (b.perform r l.bench).1.outcome := rfl

theorem bench_ask (b : Bench σ) (r : Request) (l : Ledger σ) :
    (b.ask r l).2.bench = (b.perform r l.bench).2 := rfl

theorem requests_ask (b : Bench σ) (r : Request) (l : Ledger σ) :
    (b.ask r l).2.requests = l.requests ++ [r] := by
  have quiet : ∀ rs : List Log.Record, (rs.map Entry.logged).filterMap Entry.request? = [] := by
    intro rs
    induction rs with
    | nil => rfl
    | cons x xs ih => simp [Entry.request?]
  simp [ask, Ledger.requests, Entry.request?, quiet]

end Bench

end SafeClock
