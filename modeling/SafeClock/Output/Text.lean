import SafeClock.Text.Decimal

/-!
# Texts for the operator

Frequencies are shown with their digits in groups of three, and labels that are too long end in
three dots.
-/

set_option autoImplicit false

namespace SafeClock.Output

/-- Digits with a comma before every third one, counted from the right. -/
def grouped : List Char → List Char
  | [] => []
  | c :: rest =>
    if rest.length % 3 = 0 ∧ rest ≠ [] then c :: ',' :: grouped rest else c :: grouped rest

/-- A frequency in hertz, with grouped digits. -/
def hertz (hz : Nat) : String :=
  String.ofList (grouped (Text.decimal hz) ++ [' ', 'H', 'z'])

/-- A text of at most `width` characters as it is, and the start of a longer one with three dots
behind it. Of a width below three only the dots are left. -/
def truncate (width : Nat) (s : String) : String :=
  if s.toList.length ≤ width then s
  else String.ofList (s.toList.take (width - 3)) ++ "..."

end SafeClock.Output
