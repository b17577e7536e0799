import SafeClock.Bench

/-!
# Benches that follow a script

A script says beforehand how a bench will answer. Runs are answered by rules, each for a range of
declared frequencies and with a list of outcomes that is gone through over and over; failures of
the other requests are listed one by one. A scripted bench needs nothing outside itself, so the
same script always leads to the same session.

> **what is declared**: only a request to set a frequency that is met changes the declared
> frequency, and it then declares the frequency asked for (`declared_perform`).
-/

set_option autoImplicit false

namespace SafeClock.Bench

/-- How runs are answered while the declared frequency lies within some bounds. -/
structure Rule where
  low : Option Nat := none
  high : Option Nat := none
  /-- The outcomes of the first run at a frequency, the second run, and so on, from the start
  again once they are used up. -/
  runs : List (Except ToolingError String)

/-- Whether a rule answers at a frequency. -/
def Rule.covers (r : Rule) (hz : Nat) : Bool :=
  r.low.all (· ≤ hz) && r.high.all (hz ≤ ·)

/-- The outcome of the run with a given number, counted from zero; without outcomes every run
leaves an empty trace. -/
def Rule.outcome (r : Rule) (number : Nat) : Except ToolingError String :=
  (r.runs[number % r.runs.length]?).getD (.ok "")

/-- A failure of some requests to set the frequency: of the one with a number, counted from one
over all of them, or of every one that asks for a frequency. -/
structure WriteFault where
  number : Option Nat := none
  hz : Option Nat := none
  cause : ToolingError

/-- Whether a fault strikes a request. -/
def WriteFault.strikes (f : WriteFault) (number hz : Nat) : Bool :=
  f.number == some number || f.hz == some hz

/-- What a bench will answer. -/
structure Script where
  rules : List Rule := []
  readFault : Option ToolingError := none
  writeFaults : List WriteFault := []
  /-- The number of a request to clean, counted from one, and why it fails. -/
  cleanFaults : List (Nat × ToolingError) := []

/-- How far a script has been gone through. -/
structure Script.Progress where
  declared : Nat
  writes : Nat := 0
  cleans : Nat := 0
  /-- The runs so far at each frequency at which there were any. -/
  runs : List (Nat × Nat) := []
deriving Repr

namespace Script

/-- The runs so far at a frequency. -/
def Progress.runsAt (p : Progress) (hz : Nat) : Nat :=
  ((p.runs.find? (·.1 == hz)).map Prod.snd).getD 0

/-- One more run at the declared frequency. -/
def Progress.countRun (p : Progress) : Progress :=
  { p with
    runs := (p.declared, p.runsAt p.declared + 1) :: p.runs.filter (·.1 != p.declared) }

/-- The outcome of the next run. -/
def runOutcome (s : Script) (p : Progress) : Except ToolingError String :=
  match s.rules.find? (·.covers p.declared) with
  | some rule => rule.outcome (p.runsAt p.declared)
  | none => .ok ""

/-- Why the next request to set a frequency fails, if it does. -/
def writeFault? (s : Script) (p : Progress) (hz : Nat) : Option ToolingError :=
  (s.writeFaults.find? (·.strikes (p.writes + 1) hz)).map WriteFault.cause

/-- Why the next request to clean fails, if it does. -/
def cleanFault? (s : Script) (p : Progress) : Option ToolingError :=
  (s.cleanFaults.find? (·.1 == p.cleans + 1)).map Prod.snd

/-- Answers one request. -/
def perform (s : Script) : (r : Request) → Progress → Reply r.Answer × Progress
  | .readFrequency, p =>
    match s.readFault with
    | some e => (⟨.error e, []⟩, p)
    | none => (⟨.ok p.declared, []⟩, p)
  | .setFrequency hz, p =>
    match s.writeFault? p hz with
    | some e => (⟨.error e, []⟩, { p with writes := p.writes + 1 })
    | none => (⟨.ok (), []⟩, { p with writes := p.writes + 1, declared := hz })
  | .clean, p =>
    match s.cleanFault? p with
    | some e => (⟨.error e, []⟩, { p with cleans := p.cleans + 1 })
    | none => (⟨.ok (), []⟩, { p with cleans := p.cleans + 1 })
  | .run _, p => (⟨s.runOutcome p, []⟩, p.countRun)

/-- The bench that follows a script. -/
def bench (s : Script) : Bench Progress := ⟨s.perform⟩

theorem declared_perform (s : Script) (r : Request) (p : Progress) :
    (s.perform r p).2.declared =
      match r with
      | .setFrequency hz => if (s.writeFault? p hz).isNone then hz else p.declared
      | _ => p.declared := by
  cases r with
  | readFrequency => cases h : s.readFault <;> simp [perform, h]
  | setFrequency hz => cases h : s.writeFault? p hz <;> simp [perform, h]
  | clean => cases h : s.cleanFault? p <;> simp [perform, h]
  | run application => rfl

end Script

/-- A bench with something beside it that its requests do not touch. -/
def beside {σ : Type} (τ : Type) (b : Bench σ) : Bench (σ × τ) where
  perform r s :=
    let (reply, bench) := b.perform r s.1
    (reply, (bench, s.2))

end SafeClock.Bench
