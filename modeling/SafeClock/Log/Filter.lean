import SafeClock.Log
import SafeClock.Text.Blank

/-!
# Filters for log records

A filter is a list of directives between commas. A directive is a level, or the start of the name of
a program part with a level for it, or such a start alone, which asks for everything. The directive
with the longest start that fits decides. A filter without directives leaves the decision to the
level that is configured.
-/

set_option autoImplicit false

namespace SafeClock.Log

/-- What a directive asks for, and of which parts of the program. -/
structure Directive where
  target : String
  threshold : Threshold
deriving DecidableEq, Repr

/-- The threshold of a name or a number. -/
def Threshold.ofName? (name : String) : Option Threshold :=
  match name.toLower with
  | "off" | "0" => some .silent
  | "1" => some (.atLeast .error)
  | "2" => some (.atLeast .warn)
  | "3" => some (.atLeast .info)
  | "4" => some (.atLeast .debug)
  | "5" => some (.atLeast .trace)
  | lower => (Level.ofName? lower).map .atLeast

/-- Reads a directive. -/
def Directive.read? (text : String) : Option Directive :=
  match text.splitOn "=" with
  | [name] =>
    match Threshold.ofName? name with
    | some threshold => some ⟨"", threshold⟩
    | none => some ⟨name, .atLeast .trace⟩
  | [target, name] => (Threshold.ofName? name).map fun threshold => ⟨target, threshold⟩
  | _ => none

/-- The directives of a filter; what is no directive is passed over. -/
def directives (filter : String) : List Directive :=
  ((filter.splitOn ",").filter (!·.isEmpty)).filterMap fun part =>
    Directive.read? (String.ofList (Text.trim part.toList))

/-- The directive with the longer start; of two with the same, the later one. -/
def moreSpecific (best : Option Directive) (d : Directive) : Option Directive :=
  match best with
  | none => some d
  | some b => if b.target.length ≤ d.target.length then some d else some b

/-- Which records of a program are kept, by a filter or else by the level that is configured. -/
def Threshold.ofFilter (program : String) (configured : Level) (filter : String) : Threshold :=
  match directives filter with
  | [] => .atLeast configured
  | ds =>
    match (ds.filter fun d => program.startsWith d.target).foldl moreSpecific none with
    | some d => d.threshold
    | none => .silent

end SafeClock.Log
