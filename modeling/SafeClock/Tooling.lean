import SafeClock.System.OsError

/-!
# Failures of the tools around a search

A trace that is out of order is no failure: it is what a search looks for. What stops a search is a
tool that cannot be started, ends badly, or leaves no file to read, and a header whose declaration
of the frequency cannot be found or understood.
-/

set_option autoImplicit false

namespace SafeClock

/-- A tool, a process or a file that let a search or a stress run down. -/
inductive ToolingError where
  | spawn (command : String) (cause : OsError)
  | processFailed (command status stderr : String)
  | io (path : String) (cause : OsError)
  | declarationNotFound (lead path : String)
  | malformedLiteral (literal line : String)
deriving DecidableEq, Repr

namespace ToolingError

/-- The text shown for a tooling error. -/
def message : ToolingError → String
  | spawn command cause => "Failed to spawn `" ++ command ++ "`: " ++ cause.message
  | processFailed command status stderr =>
    "Command `" ++ command ++ "` exited with " ++ status ++ ": " ++ stderr
  | io path cause => "I/O error on " ++ path ++ ": " ++ cause.message
  | declarationNotFound lead path =>
    "Frequency declaration `" ++ lead ++ "` not found in " ++ path
  | malformedLiteral literal line =>
    "Malformed frequency literal `" ++ literal ++ "` in declaration: " ++ line

/-- The system error behind a tooling error, if there is one. -/
def cause? : ToolingError → Option OsError
  | spawn _ cause => some cause
  | io _ cause => some cause
  | processFailed _ _ _ => none
  | declarationNotFound _ _ => none
  | malformedLiteral _ _ => none

/-- The texts of an error and of what lies behind it, outermost first. -/
def chain (e : ToolingError) : List String :=
  e.message :: (e.cause?.map OsError.message).toList

end ToolingError

end SafeClock
