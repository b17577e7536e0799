/-!
# Whole numbers in decimal

A number is written with the fewest digits. It is read more freely: leading zeros and one plus sign
in front are allowed, and a number that does not fit the word it is read into is refused.
-/

set_option autoImplicit false

namespace SafeClock.Text

/-- The decimal digits of a number, without leading zeros. -/
def decimal (n : Nat) : List Char :=
  Nat.toDigits 10 n

/-- The number that a run of decimal digits stands for. -/
def ofDigits (digits : List Char) : Nat :=
  digits.foldl (fun n c => 10 * n + (c.toNat - '0'.toNat)) 0

/-- Reads a text that is one or more decimal digits and nothing else. -/
def readDigits? (cs : List Char) : Option Nat :=
  if cs ≠ [] ∧ cs.all Char.isDigit then some (ofDigits cs) else none

/-- The text behind one plus sign, if it starts with one. -/
def dropPlus : List Char → List Char
  | '+' :: rest => rest
  | cs => cs

/-- Reads a number below `limit`, with an optional plus sign in front. -/
def readWord? (limit : Nat) (cs : List Char) : Option Nat :=
  (readDigits? (dropPlus cs)).filter (· < limit)

end SafeClock.Text
