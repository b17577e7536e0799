import SafeClock.Yaml.Gap

/-!
# Scalars in a block of lines

A block scalar is announced by a bar or an angle bracket, and its text is made of the lines below
that are indented further. A literal block keeps its ends of lines; in a folded one a single end of
line between two lines that start with no blank is a space. What becomes of the ends of lines
behind the text is announced as well.
-/

set_option autoImplicit false

namespace SafeClock.Yaml.Scalar

/-- What becomes of the ends of lines behind the text. -/
inductive Chomp where
  /-- All are dropped. -/
  | strip
  /-- The first is kept. -/
  | clip
  /-- All are kept. -/
  | keep
deriving DecidableEq

/-- The meaning of a sign behind the announcement. -/
def chomp? (c : Option Char) : Option Chomp :=
  match c with
  | some '+' => some .keep
  | some '-' => some .strip
  | _ => none

/-- Reads a digit that says how much further the text is indented; zero is refused. Without a digit
the answer is zero. -/
def increment? (c : Cursor) : Option (Nat × Cursor) :=
  match c.head? with
  | some d =>
    if d = '0' then none
    else if d.isDigit then some (d.toNat - '0'.toNat, c.advance 1)
    else some (0, c)
  | none => some (0, c)

/-- Reads what is announced behind the bar: the sign and the digit, in either order. -/
def announced? (c : Cursor) : Option (Chomp × Nat × Cursor) :=
  match chomp? c.head? with
  | some chomp => (increment? (c.advance 1)).map fun (n, c) => (chomp, n, c)
  | none =>
    match increment? c with
    | none => none
    | some (n, next) =>
      match n, chomp? next.head? with
      | _ + 1, some chomp => some (chomp, n, next.advance 1)
      | _, _ => some (.clip, n, next)

/-- Passes over the indentation of lines that are empty, collecting their ends. The column at which
the text stands is `indent`, or zero if it is still to be found; then it is the deepest one seen,
but at least `least`. -/
def emptyLines (least : Nat) :
    (fuel : Nat) → (indent deepest : Nat) → List Char → Cursor → Option (Nat × List Char × Cursor)
  | 0, _, _, _, _ => none
  | fuel + 1, indent, deepest, breaks, c =>
    let spaces := (c.rest.takeWhile (· == ' ')).length
    let c := c.advance (if indent = 0 then spaces else min spaces (indent - c.column))
    let deepest := max deepest c.column
    if (indent = 0 ∨ c.column < indent) ∧ c.at? '\t' then none
    else
      match c.lineBreak? with
      | some (b, next) => emptyLines least fuel indent deepest (breaks ++ [b]) next
      | none => some (if indent = 0 then max deepest least else indent, breaks, c)

/-- What is known of a block scalar at the start of a line: the text so far, the end of the line
before, the ends of the empty lines since, and whether the line before started with a blank. -/
structure BlockText where
  text : List Char := []
  ended : List Char := []
  breaks : List Char := []
  blank : Bool := false

/-- The text up to the start of a line. The ends of lines before it are folded unless the line, or
the one before it, starts with a blank. -/
def BlockText.joined (literal : Bool) (b : BlockText) (blank : Bool) : List Char :=
  let ended :=
    if !literal ∧ b.ended = ['\n'] ∧ !b.blank ∧ !blank then
      if b.breaks.isEmpty then [' '] else []
    else b.ended
  b.text ++ ended ++ b.breaks

/-- Reads the lines of the text. -/
def blockLines (literal : Bool) (indent : Nat) :
    (fuel : Nat) → BlockText → Cursor → Option (BlockText × Cursor)
  | 0, _, _ => none
  | fuel + 1, b, c =>
    if c.column ≠ indent ∨ c.isEnd then some (b, c)
    else
      let blank := c.head?.any isSpace
      let (line, c) := c.takeWhile (fun x => !isBreak x)
      let ended := (c.lineBreak?.map fun (x, _) => [x]).getD []
      match emptyLines indent (c.rest.length + 1) indent 0 [] c.skipBreak with
      | none => none
      | some (_, breaks, next) =>
        blockLines literal indent fuel
          { text := b.joined literal blank ++ line, ended, breaks, blank } next

/-- Reads a block scalar, from its bar or angle bracket on. The collection around it is indented by
`parent`, which is negative outside of any. -/
def block (literal : Bool) (parent : Int) (c : Cursor) : Option (List Char × Cursor) := do
  let (chomp, increment, c) ← announced? (c.advance 1)
  let c ← c.endLine?
  let indent := if increment = 0 then 0 else parent.toNat + increment
  let least := max 1 (parent + 1).toNat
  let (indent, breaks, c) ← emptyLines least (c.rest.length + 1) indent 0 [] c
  let (b, c) ← blockLines literal indent (c.rest.length + 1) { breaks } c
  let kept := match chomp with
    | .strip => []
    | .clip => b.ended
    | .keep => b.ended ++ b.breaks
  return (b.text ++ kept, c)

end SafeClock.Yaml.Scalar
