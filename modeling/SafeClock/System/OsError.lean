/-!
# Why a file or a program could not be used
-/

set_option autoImplicit false

namespace SafeClock

/-- What the system answers when it refuses to open, write or start something. -/
inductive OsError where
  | notFound
  | permissionDenied
  | alreadyExists
  | notADirectory
  | isADirectory
  | execFormat
  | directoryNotEmpty
  | nameTooLong
  /-- The bytes of a file that is read as text are not UTF-8. -/
  | invalidText
  /-- A refusal of which only the wording is known. -/
  | other (text : String)
deriving DecidableEq, Repr

namespace OsError

/-- What went wrong, in the system's words. -/
def reason : OsError → String
  | notFound => "No such file or directory"
  | permissionDenied => "Permission denied"
  | alreadyExists => "File exists"
  | notADirectory => "Not a directory"
  | isADirectory => "Is a directory"
  | execFormat => "Exec format error"
  | directoryNotEmpty => "Directory not empty"
  | nameTooLong => "File name too long"
  | invalidText => "stream did not contain valid UTF-8"
  | other text => text

/-- The number the system gives an error; none if the error is not the system's own. -/
def code? : OsError → Option Nat
  | notFound => some 2
  | execFormat => some 8
  | permissionDenied => some 13
  | alreadyExists => some 17
  | notADirectory => some 20
  | isADirectory => some 21
  | nameTooLong => some 36
  | directoryNotEmpty => some 39
  | invalidText => none
  | other _ => none

/-- The text shown for an error: the reason, and the number if there is one. -/
def message (e : OsError) : String :=
  match e.code? with
  | some n => s!"{e.reason} (os error {n})"
  | none => e.reason

end OsError

end SafeClock
