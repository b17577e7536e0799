import SafeClock.Text.Decimal

/-!
# Numbers with a fraction or an exponent

Such a number is a sign, digits with at most one point among them, and perhaps an exponent. It is
read exactly, as digits and a power of ten; `isFinite` says whether the binary number of 53 digits
nearest to it exists.
-/

set_option autoImplicit false

namespace SafeClock.Text

/-- A number: a whole number times a power of ten. The sign is left out. -/
structure Real where
  digits : Nat
  exponent : Int
deriving DecidableEq, Repr

/-- The text behind one sign, if it starts with one. -/
def dropSign : List Char → List Char
  | '+' :: rest => rest
  | '-' :: rest => rest
  | cs => cs

/-- Reads a whole number with an optional sign. -/
def readSigned? (cs : List Char) : Option Int :=
  match cs with
  | '-' :: digits => (readDigits? digits).map fun n => -(n : Int)
  | _ => (readDigits? (dropPlus cs)).map fun n => (n : Int)

/-- Reads an exponent, from its letter on; no text at all is the exponent zero. -/
def readExponent? (cs : List Char) : Option Int :=
  match cs with
  | [] => some 0
  | 'e' :: rest => readSigned? rest
  | 'E' :: rest => readSigned? rest
  | _ => none

/-- Reads a number. -/
def readReal? (cs : List Char) : Option Real := do
  let cs := dropSign cs
  let whole := cs.takeWhile Char.isDigit
  let rest := cs.dropWhile Char.isDigit
  let (part, rest) := match rest with
    | '.' :: rest => (rest.takeWhile Char.isDigit, rest.dropWhile Char.isDigit)
    | _ => ([], rest)
  let exponent ← readExponent? rest
  if whole.isEmpty ∧ part.isEmpty then none
  else some ⟨ofDigits (whole ++ part), exponent - part.length⟩

/-- Numbers from this one on round to no finite binary number of 53 digits. -/
def finiteLimit : Nat := Nat.pow 2 1024 - Nat.pow 2 970

/-- Whether a number rounds to a finite binary number. Numbers that lie far from the limit are told
by their number of digits alone. -/
def Real.isFinite (r : Real) : Bool :=
  let size : Int := (decimal r.digits).length + r.exponent
  if r.digits = 0 ∨ size < 308 then true
  else if 310 < size then false
  else if 0 ≤ r.exponent then r.digits * Nat.pow 10 r.exponent.toNat < finiteLimit
  else r.digits < finiteLimit * Nat.pow 10 (-r.exponent).toNat

end SafeClock.Text
