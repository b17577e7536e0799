/-!
# Styled text on a terminal

A style is a colour and an emphasis, either of which may be missing. On a terminal without styles
the text stands alone.
-/

set_option autoImplicit false

namespace SafeClock.Output

/-- The colours that are used. -/
inductive Colour where
  | red
  | green
  | yellow
  | cyan
deriving DecidableEq, Repr

/-- How much a text stands out. -/
inductive Emphasis where
  | bold
  | dim
deriving DecidableEq, Repr

/-- A colour and an emphasis. -/
structure Style where
  colour : Option Colour := none
  emphasis : Option Emphasis := none
deriving DecidableEq, Repr

/-- Whether the terminal shows styles. -/
inductive Terminal where
  | styled
  | plain
deriving DecidableEq, Repr

/-- The control sequence with a given number. -/
def control (n : Nat) : String := s!"\x1b[{n}m"

/-- The number that turns a colour on. -/
def Colour.number : Colour → Nat
  | red => 31
  | green => 32
  | yellow => 33
  | cyan => 36

/-- The number that turns an emphasis on. -/
def Emphasis.number : Emphasis → Nat
  | bold => 1
  | dim => 2

/-- The text in a style: the colour is turned on first, then the emphasis, and both are turned off
behind the text. -/
def Style.apply (style : Style) (terminal : Terminal) (text : String) : String :=
  match terminal with
  | .plain => text
  | .styled =>
    let colour := (style.colour.map fun c => control c.number).getD ""
    let emphasis := (style.emphasis.map fun e => control e.number).getD ""
    colour ++ emphasis ++ text ++ control 0

end SafeClock.Output
