/-!
# How a process ends

A process ends by itself, with a code from 0 to 255, or is ended by a signal. Only the code 0 means
that it did what it was asked for.
-/

set_option autoImplicit false

namespace SafeClock.Process

/-- How a process ended. -/
inductive Status where
  | exited (code : Nat)
  | killed (signal : Nat)
deriving DecidableEq, Repr

/-- The names of the signals, from the first on. -/
def signalNames : List String :=
  [ "HUP", "INT", "QUIT", "ILL", "TRAP", "ABRT", "BUS", "FPE", "KILL", "USR1", "SEGV", "USR2",
    "PIPE", "ALRM", "TERM", "STKFLT", "CHLD", "CONT", "STOP", "TSTP", "TTIN", "TTOU", "URG",
    "XCPU", "XFSZ", "VTALRM", "PROF", "WINCH", "IO", "PWR", "SYS" ]

/-- The name of a signal. -/
def signalName? (signal : Nat) : Option String :=
  if signal = 0 then none else signalNames[signal - 1]?

/-- The signal of a name, or of a number. -/
def signalOfName? (name : String) : Option Nat :=
  match name.toNat? with
  | some n => some n
  | none => (signalNames.findIdx? (· == name)).map (· + 1)

/-- Whether a process passes over a signal that it makes no provision for. -/
def isIgnored (signal : Nat) : Bool :=
  [0, 17, 18, 23, 28].contains signal

namespace Status

/-- Whether a process did what it was asked for. -/
def isSuccess (s : Status) : Bool := s == .exited 0

/-- The number that a shell reports a status as. -/
def code : Status → Nat
  | exited n => n
  | killed signal => 128 + signal

/-- The text shown for a status. -/
def message : Status → String
  | exited n => s!"exit status: {n}"
  | killed signal =>
    match signalName? signal with
    | some name => s!"signal: {signal} (SIG{name})"
    | none => s!"signal: {signal}"

end Status

end SafeClock.Process
