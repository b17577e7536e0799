import SafeClock.Frequency
import SafeClock.Text.Decimal
import SafeClock.Text.Lines

/-!
# The declaration of the frequency in a header

A platform's header declares its clock frequency on one line, as in

    static const long FREQUENCY = 1000; // Hz

The declaration is the first line that starts with a given lead-in. Its literal stands between the
first `=` after the lead-in and the next `;`, without the blanks around it, and may carry the
suffixes of an integer literal. `read` answers the number; `write` puts another number in the place
of the literal and leaves every other character alone.

`Parts` cuts a line into what stands before the literal, the literal, and what stands after it:

> **a cut loses nothing**: the literal with the blanks around it, put together again, is what
> stands between `=` and `;` (`cutBlanks_append`).
-/

set_option autoImplicit false

namespace SafeClock.Declaration

open SafeClock.Text

/-- Why a header yields no frequency. -/
inductive Fault where
  /-- No line starts with the lead-in. -/
  | absent
  /-- The line is not of the form above, or its literal is no frequency. -/
  | malformed (literal line : String)
  /-- Between `=` and `;` stand blanks and nothing else, so that the literal has no place. -/
  | blankLiteral
deriving DecidableEq, Repr

/-- A declaration, cut at its literal. -/
structure Parts where
  before : List Char
  literal : List Char
  after : List Char
deriving DecidableEq, Repr

/-- The line that was cut. -/
def Parts.text (p : Parts) : List Char :=
  p.before ++ p.literal ++ p.after

/-- The fault of a line whose literal cannot be found or understood. -/
def malformed (literal line : List Char) : Fault :=
  .malformed (String.ofList (trim literal)) (String.ofList (trimEnd line))

/-- The text between `=` and `;`, cut into its leading blanks, the literal and its trailing
blanks. -/
def cutBlanks (raw : List Char) : List Char × List Char × List Char :=
  let start := raw.takeWhile isBlank
  let rest := raw.dropWhile isBlank
  (start, trimEnd rest, rest.drop (trimEnd rest).length)

/-- Cuts a line that starts with the lead-in at its literal. -/
def cut (lead line : List Char) : Except Fault Parts :=
  let rest := line.drop lead.length
  match rest.dropWhile (· != '=') with
  | [] => .error (malformed [] line)
  | _ :: value =>
    match value.dropWhile (· != ';') with
    | [] => .error (malformed value line)
    | _ :: post =>
      let raw := value.takeWhile (· != ';')
      if raw ≠ [] ∧ raw.all isBlank then .error .blankLiteral
      else
        let (start, literal, finish) := cutBlanks raw
        .ok
          { before := line.take lead.length ++ rest.takeWhile (· != '=') ++ '=' :: start
            literal := literal
            after := finish ++ ';' :: post }

/-- A letter that may end an integer literal. -/
def isSuffix (c : Char) : Bool :=
  c == 'l' || c == 'L' || c == 'u' || c == 'U'

/-- The frequency a literal stands for. -/
def frequency? (literal : List Char) : Option Nat :=
  readWord? frequencyLimit (dropEndWhile isSuffix literal)

/-- The parts of a declaration and the frequency it declares. -/
def parse (lead line : List Char) : Except Fault (Parts × Nat) :=
  match cut lead line with
  | .error e => .error e
  | .ok parts =>
    match frequency? parts.literal with
    | none => .error (malformed parts.literal line)
    | some hz => .ok (parts, hz)

/-- The frequency that a header declares. -/
def read (lead text : String) : Except Fault Nat :=
  match (lines text.toList).find? (lead.toList.isPrefixOf ·) with
  | none => .error .absent
  | some line => (parse lead.toList line).map Prod.snd

/-- Replaces the literal in the first segment that starts with the lead-in. -/
def writeSegments (lead digits : List Char) : List (List Char) → Except Fault (List Char)
  | [] => .error .absent
  | segment :: rest =>
    if lead.isPrefixOf segment then
      (parse lead segment).map fun (parts, _) =>
        parts.before ++ digits ++ parts.after ++ rest.flatten
    else (writeSegments lead digits rest).map (segment ++ ·)

/-- The header with another frequency declared. -/
def write (lead text : String) (hz : Nat) : Except Fault String :=
  (writeSegments lead.toList (decimal hz) (segments text.toList)).map String.ofList

theorem trimEnd_append_drop (xs : List Char) :
    trimEnd xs ++ xs.drop (trimEnd xs).length = xs := by
  have h : trimEnd xs ++ (xs.reverse.takeWhile isBlank).reverse = xs := by
    rw [trimEnd, dropEndWhile, ← List.reverse_append, List.takeWhile_append_dropWhile,
      List.reverse_reverse]
  generalize trimEnd xs = front at h ⊢
  generalize (xs.reverse.takeWhile isBlank).reverse = back at h
  subst h
  simp

theorem cutBlanks_append (raw : List Char) :
    (cutBlanks raw).1 ++ ((cutBlanks raw).2.1 ++ (cutBlanks raw).2.2) = raw := by
  simp only [cutBlanks, trimEnd_append_drop, List.takeWhile_append_dropWhile]

end SafeClock.Declaration
