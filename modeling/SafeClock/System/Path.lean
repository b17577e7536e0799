/-!
# Paths

A path that stands in a document or on the command line is a text, and those are the paths that the
program is given. To the system a path is any bytes at all, and it may hand over one that is the
bytes of no text. `PathKind` is what both have in common: every text is a path, and a path may be
asked for its text.

> **a path has its text or none**: a path that has a text is the path of that text
> (`PathKind.text?_eq_some_iff`).
-/

set_option autoImplicit false

namespace SafeClock

/-- What can stand for a path. -/
class PathKind (π : Type) where
  /-- The path that is given by a text. -/
  ofText : String → π
  /-- The text of a path, none if it has none. -/
  text? : π → Option String
  text?_eq_some_iff {path : π} {text : String} : text? path = some text ↔ path = ofText text

namespace PathKind

variable {π : Type} [PathKind π]

theorem text?_ofText (text : String) : text? (ofText text : π) = some text :=
  text?_eq_some_iff.mpr rfl

/-- The text of a path that may be missing; a missing path needs none. -/
def optionalText? : Option π → Option (Option String)
  | some path => (text? path).map some
  | none => some none

theorem optionalText?_eq_some_iff {path : Option π} {text : Option String} :
    optionalText? path = some text ↔ path = text.map ofText := by
  cases path <;> cases text <;> simp [optionalText?, text?_eq_some_iff]

theorem isSome_optionalText?_iff {path : Option π} :
    (optionalText? path).isSome = true ↔ ∀ p ∈ path, (text? p).isSome = true := by
  cases path <;> simp [optionalText?]

end PathKind

/-- Texts are paths, and each one is its own. -/
instance : PathKind String where
  ofText text := text
  text? := some
  text?_eq_some_iff := Option.some_inj

/-- A path as the system has it. -/
structure SystemPath where
  bytes : ByteArray

theorem fromUTF8?_eq_some_iff {bytes : ByteArray} {text : String} :
    String.fromUTF8? bytes = some text ↔ bytes = text.toUTF8 := by
  rw [String.fromUTF8?]
  constructor
  · intro h
    split at h
    · exact congrArg String.toUTF8 (Option.some.inj h)
    · cases h
  · rintro rfl
    exact dif_pos text.isValidUTF8

/-- A path of the system has a text if its bytes are UTF-8. -/
instance : PathKind SystemPath where
  ofText text := ⟨text.toUTF8⟩
  text? path := String.fromUTF8? path.bytes
  text?_eq_some_iff {path text} := by
    rw [fromUTF8?_eq_some_iff]
    constructor
    · intro h
      rw [← h]
    · rintro rfl
      rfl

end SafeClock
