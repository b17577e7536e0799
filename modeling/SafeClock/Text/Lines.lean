import SafeClock.Text.Blank

/-!
# Lines

A text is a sequence of *segments*, each ended by its line feed, the last one perhaps by the end of
the text. A *line* is a segment without its ending, which is a line feed and the carriage return
before it. A carriage return that no line feed follows belongs to its line.

> **nothing is lost**: the segments of a text, put together again, are the text.
-/

set_option autoImplicit false

namespace SafeClock.Text

/-- The text cut behind each line feed. -/
def segments (cs : List Char) : List (List Char) :=
  cs.foldr (fun c acc =>
    if c = '\n' then ['\n'] :: acc
    else match acc with
      | [] => [[c]]
      | segment :: rest => (c :: segment) :: rest) []

/-- A segment without its ending. -/
def dropEnding (segment : List Char) : List Char :=
  match segment.reverse with
  | '\n' :: '\r' :: rest => rest.reverse
  | '\n' :: rest => rest.reverse
  | _ => segment

/-- The lines of a text. A line feed at the end of the text opens no further line. -/
def lines (cs : List Char) : List (List Char) :=
  (segments cs).map dropEnding

theorem flatten_segments (cs : List Char) : (segments cs).flatten = cs := by
  induction cs with
  | nil => rfl
  | cons c cs ih =>
    have step : segments (c :: cs) =
        if c = '\n' then ['\n'] :: segments cs
        else match segments cs with
          | [] => [[c]]
          | segment :: rest => (c :: segment) :: rest := rfl
    rw [step]
    split
    · next h => simp [h, ih]
    · cases hs : segments cs with
      | nil => simp [hs] at ih; simp [ih]
      | cons segment rest => simp [hs] at ih; simp [ih]

end SafeClock.Text
