import SafeClock.Text.CharacterSet

/-!
# Patterns

In a pattern a star stands for any text, a question mark for any character, and a set in brackets
for one of its members. A quoted character stands for itself. Patterns are matched against whole
texts.
-/

set_option autoImplicit false

namespace SafeClock.Shell

open SafeClock.Text

/-- A piece of a pattern. -/
inductive Glob where
  | many
  | any
  | set (s : CharacterSet)
  | one (c : Char)

/-- A character of a word, and whether it is quoted. -/
structure Mark where
  char : Char
  quoted : Bool
deriving DecidableEq, Repr

namespace Pattern

/-- Reads a pattern. A bracket that is not closed stands for itself. -/
def ofMarks : (fuel : Nat) → List Mark → List Glob
  | 0, _ => []
  | _ + 1, [] => []
  | fuel + 1, m :: rest =>
    if m.quoted then .one m.char :: ofMarks fuel rest
    else if m.char = '*' then .many :: ofMarks fuel rest
    else if m.char = '?' then .any :: ofMarks fuel rest
    else if m.char = '[' then
      match readSet? ['!', '^'] (rest.map Mark.char) with
      | some (set, behind) => .set set :: ofMarks fuel (rest.drop (rest.length - behind.length))
      | none => .one '[' :: ofMarks fuel rest
    else .one m.char :: ofMarks fuel rest

/-- Reads a pattern. -/
def read (marks : List Mark) : List Glob := ofMarks (marks.length + 1) marks

/-- Whether a piece other than a star stands for a character. -/
def accepts (g : Glob) (c : Char) : Bool :=
  match g with
  | .many => false
  | .any => true
  | .set s => s.contains c
  | .one x => x == c

/-- The ends of a text, the longest first. -/
def ends : List Char → List (List Char)
  | [] => [[]]
  | c :: rest => (c :: rest) :: ends rest

/-- Whether a pattern matches a text. -/
def isMatch : List Glob → List Char → Bool
  | [], text => text.isEmpty
  | .many :: rest, text => (ends text).any (isMatch rest)
  | g :: rest, text =>
    match text with
    | [] => false
    | c :: text => accepts g c && isMatch rest text

/-- Whether a word has a piece that can stand for more than one text. -/
def isOpen (marks : List Mark) : Bool :=
  (read marks).any fun
    | .one _ => false
    | _ => true

/-- The starts of a text, the shortest first. -/
def starts (text : List Char) : List (List Char) :=
  (List.range (text.length + 1)).map text.take

/-- The text without a start that matches. -/
def dropStart (longest : Bool) (p : List Glob) (text : List Char) : List Char :=
  let candidates := if longest then (starts text).reverse else starts text
  match candidates.find? (isMatch p) with
  | some found => text.drop found.length
  | none => text

/-- The text without an end that matches. -/
def dropEnd (longest : Bool) (p : List Glob) (text : List Char) : List Char :=
  let candidates := if longest then ends text else (ends text).reverse
  match candidates.find? (isMatch p) with
  | some found => text.take (text.length - found.length)
  | none => text

end Pattern

end SafeClock.Shell
