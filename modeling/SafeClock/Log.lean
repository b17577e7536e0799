/-!
# Log records

A record is a level and a message. Levels are ordered from the most talkative to the least, and a
record is kept when its level is at least the one asked for.
-/

set_option autoImplicit false

namespace SafeClock.Log

/-- How loud a record is. -/
inductive Level where
  | trace
  | debug
  | info
  | warn
  | error
deriving DecidableEq, Repr

namespace Level

/-- The name a level is written with in a record. -/
def label : Level → String
  | trace => "TRACE"
  | debug => "DEBUG"
  | info => "INFO"
  | warn => "WARN"
  | error => "ERROR"

/-- The level's place in the order of levels. -/
def severity : Level → Nat
  | trace => 0
  | debug => 1
  | info => 2
  | warn => 3
  | error => 4

/-- A name in small letters. Folding the letters A to Z is enough: no other letter folds into a
letter of the name of a level. -/
def inSmallLetters (name : String) : String :=
  String.ofList (name.toList.map Char.toLower)

/-- The level of a name in small letters. -/
def ofSmallName? : String → Option Level
  | "trace" => some trace
  | "debug" => some debug
  | "info" => some info
  | "warn" => some warn
  | "error" => some error
  | _ => none

/-- The level of a name, in any case. -/
def ofName? (name : String) : Option Level :=
  ofSmallName? (inSmallLetters name)

end Level

/-- The text shown for a name that is no level's. -/
def unknownLevelMessage (name : String) : String :=
  "Invalid log level: " ++ name

/-- One entry of a log. -/
structure Record where
  level : Level
  message : String
deriving DecidableEq, Repr

/-- Which records are kept: those from a level on, or none at all. -/
inductive Threshold where
  | atLeast (level : Level)
  | silent
deriving DecidableEq, Repr

/-- Whether a record is kept. -/
def Threshold.keeps (t : Threshold) (r : Record) : Bool :=
  match t with
  | atLeast level => level.severity ≤ r.level.severity
  | silent => false

end SafeClock.Log
