import SafeClock.Yaml.Cursor

/-!
# What stands between the parts of a scalar

A scalar that goes on after blanks, perhaps on a later line, is folded: blanks within a line stand
for themselves, a single end of line is a space, and of several ends of lines the first is dropped.
Blanks at the start of a further line are indentation.
-/

set_option autoImplicit false

namespace SafeClock.Yaml

/-- Blanks and ends of lines between two parts of a scalar. -/
structure Gap where
  /-- The blanks, as long as no line has ended. -/
  spaces : List Char := []
  /-- The first end of a line; none if it is escaped. -/
  first : Option Char := none
  /-- The further ends of lines. -/
  more : List Char := []
  /-- Whether a line has ended. -/
  broken : Bool := false

namespace Gap

/-- What a gap stands for. -/
def folded (g : Gap) : List Char :=
  if g.broken then
    match g.first with
    | some '\n' => if g.more.isEmpty then [' '] else g.more
    | some c => c :: g.more
    | none => g.more
  else g.spaces

/-- Takes in blanks and ends of lines, as many as `fuel` allows. No tab may stand in the indentation
of a further line before the column `indent`. -/
def extend (indent : Nat) : (fuel : Nat) → Gap → Cursor → Option (Gap × Cursor)
  | 0, g, c => some (g, c)
  | fuel + 1, g, c =>
    match c.head?, c.lineBreak? with
    | _, some (b, next) =>
      if g.broken then extend indent fuel { g with more := g.more ++ [b] } next
      else extend indent fuel { first := some b, broken := true } next
    | some x, none =>
      if !isSpace x then some (g, c)
      else if !g.broken then
        extend indent fuel { g with spaces := g.spaces ++ [x] } (c.advance 1)
      else if x = '\t' ∧ c.column < indent then none
      else extend indent fuel g (c.advance 1)
    | none, none => some (g, c)

/-- Takes in all blanks and ends of lines at the cursor. -/
def read (indent : Nat) (g : Gap) (c : Cursor) : Option (Gap × Cursor) :=
  extend indent c.rest.length g c

end Gap

end SafeClock.Yaml
