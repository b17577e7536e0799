/-!
# A place in a text

A `Cursor` is what is left of a text, and where that is: how many characters lie before it, on
which line and in which column. Lines end in a line feed, a carriage return, both, or one of the
three separators of the Unicode standard.

> **only forwards**: every step takes characters away from the front of what is left.
-/

set_option autoImplicit false

namespace SafeClock.Yaml

/-- A character that ends a line. -/
def isBreak (c : Char) : Bool :=
  c == '\n' || c == '\r' || c.toNat == 0x85 || c.toNat == 0x2028 || c.toNat == 0x2029

/-- A space or a tab. -/
def isSpace (c : Char) : Bool := c == ' ' || c == '\t'

/-- A space, a tab, the end of a line or the end of the text. -/
def isGap (c : Option Char) : Bool :=
  c.all fun c => isSpace c || isBreak c

/-- A character of a name. -/
def isWord (c : Char) : Bool :=
  c.isAlphanum || c == '_' || c == '-'

/-- A character that a document may hold: no control but the tab and the ends of lines. -/
def isPrintable (c : Char) : Bool :=
  let n := c.toNat
  n == 0x09 || n == 0x0A || n == 0x0D || (0x20 ≤ n && n ≤ 0x7E) || n == 0x85 ||
    (0xA0 ≤ n && n ≤ 0xD7FF) || (0xE000 ≤ n && n ≤ 0xFFFD) || 0x10000 ≤ n

/-- What is left of a text, and where it starts. -/
structure Cursor where
  rest : List Char
  index : Nat := 0
  line : Nat := 0
  column : Nat := 0

namespace Cursor

/-- The character at a distance from the cursor. -/
def peek (c : Cursor) (distance : Nat) : Option Char := c.rest[distance]?

/-- The character at the cursor. -/
def head? (c : Cursor) : Option Char := c.rest.head?

/-- Whether the character at the cursor is a given one. -/
def at? (c : Cursor) (x : Char) : Bool := c.rest.head? == some x

/-- Whether nothing is left. -/
def isEnd (c : Cursor) : Bool := c.rest.isEmpty

/-- Moves on within a line. -/
def advance (c : Cursor) (n : Nat) : Cursor :=
  { c with rest := c.rest.drop n, index := c.index + n, column := c.column + n }

/-- Moves on while characters, none of which ends a line, satisfy `p`. -/
def takeWhile (c : Cursor) (p : Char → Bool) : List Char × Cursor :=
  let taken := c.rest.takeWhile p
  (taken, c.advance taken.length)

/-- Moves on while characters, none of which ends a line, satisfy `p`. -/
def dropWhile (c : Cursor) (p : Char → Bool) : Cursor :=
  (c.takeWhile p).2

/-- Moves to the start of the next line, `n` characters on. -/
def newLine (c : Cursor) (n : Nat) : Cursor :=
  { rest := c.rest.drop n, index := c.index + n, line := c.line + 1, column := 0 }

/-- Moves over the end of a line. It counts as a line feed, but for the two separators of lines and
paragraphs, which count as themselves. -/
def lineBreak? (c : Cursor) : Option (Char × Cursor) :=
  match c.rest with
  | '\r' :: '\n' :: _ => some ('\n', c.newLine 2)
  | x :: _ =>
    if x.toNat = 0x2028 ∨ x.toNat = 0x2029 then some (x, c.newLine 1)
    else if isBreak x then some ('\n', c.newLine 1)
    else none
  | [] => none

/-- Moves over the end of a line, if the cursor is at one. -/
def skipBreak (c : Cursor) : Cursor :=
  match c.lineBreak? with
  | some (_, c) => c
  | none => c

/-- Moves over a comment, if the cursor is at one. -/
def skipComment (c : Cursor) : Cursor :=
  if c.at? '#' then c.dropWhile (fun x => !isBreak x) else c

/-- Moves over the rest of a line that holds nothing but blanks and a comment, and over its end. -/
def endLine? (c : Cursor) : Option Cursor :=
  let c := (c.dropWhile isSpace).skipComment
  if c.head?.all isBreak then some c.skipBreak else none

/-- Whether a line starts here with a character three times, as the marks between documents do. -/
def isMark (c : Cursor) (x : Char) : Bool :=
  c.column == 0 && c.rest.take 3 == [x, x, x] && isGap (c.peek 3)

/-- Whether a mark between documents starts here. -/
def isDocumentMark (c : Cursor) : Bool :=
  c.isMark '-' || c.isMark '.'

end Cursor

end SafeClock.Yaml
