import SafeClock.Bench
import SafeClock.Declaration
import SafeClock.System.FileTree

/-!
# The header that declares the platform's frequency

A `Header` is a path and the lead-in of the declaration in the file there. Reading and writing the
declared frequency are functions of the tree of files. A write reads the file first, and puts the
file back only if its text changes.

> **all or nothing**: a write that fails leaves the tree as it was, because `write` answers a new
> tree only when it is met.
-/

set_option autoImplicit false

namespace SafeClock

/-- Where the frequency is declared. -/
structure Header where
  path : String
  /-- How the line of the declaration starts. -/
  lead : String
deriving DecidableEq, Repr

namespace Header

/-- Why the declared frequency could not be read or written. -/
inductive Fault where
  /-- The file cannot be used. -/
  | unusable (cause : OsError)
  /-- The text of the file holds no proper declaration. -/
  | undeclared (cause : Declaration.Fault)
deriving DecidableEq, Repr

/-- The tooling error that a fault is reported as. A blank literal is never reported: the program
ends (panics) where it meets one, and the error it has here only stands for that. -/
def tooling (h : Header) : Fault → ToolingError
  | .unusable cause => .io h.path cause
  | .undeclared .absent => .declarationNotFound h.lead h.path
  | .undeclared (.malformed literal line) => .malformedLiteral literal line
  | .undeclared .blankLiteral => .malformedLiteral "" h.lead

/-- The text of the header. -/
def text (h : Header) (cwd : Place) (t : FileTree) : Except Fault String :=
  (t.readText cwd h.path).mapError .unusable

/-- The declared frequency. -/
def read (h : Header) (cwd : Place) (t : FileTree) : Except Fault Nat :=
  match h.text cwd t with
  | .error e => .error e
  | .ok text => (Declaration.read h.lead text).mapError .undeclared

/-- The tree with another frequency declared. -/
def write (h : Header) (cwd : Place) (hz : Nat) (t : FileTree) : Except Fault FileTree :=
  match h.text cwd t with
  | .error e => .error e
  | .ok text =>
    match Declaration.write h.lead text hz with
    | .error e => .error (.undeclared e)
    | .ok updated =>
      if updated = text then .ok t
      else (t.write cwd h.path updated.toUTF8).mapError .unusable

/-- Answers a request for the declared frequency. -/
def answerRead (h : Header) (cwd : Place) (t : FileTree) : Reply Nat × FileTree :=
  (⟨(h.read cwd t).mapError h.tooling, []⟩, t)

/-- Answers a request to declare another frequency; one that is met is logged. -/
def answerWrite (h : Header) (cwd : Place) (hz : Nat) (t : FileTree) : Reply Unit × FileTree :=
  match h.write cwd hz t with
  | .ok t => (⟨.ok (), [⟨.debug, "Frequency declared"⟩]⟩, t)
  | .error e => (⟨.error (h.tooling e), []⟩, t)

end Header

end SafeClock
