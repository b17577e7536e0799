/-!
# Points in time, and how long something took

An `Instant` is a number of seconds since the start of 1970 and a part of a second. It is written
as a date and a time of day of the proleptic Gregorian calendar. A duration is shown in seconds
with one decimal.

> **rounding**: the seconds of a duration are held in a binary number of 53 digits before they are
> shown, and both roundings, to that number and from it to one decimal, go to the nearest, a tie to
> the even neighbour.
-/

set_option autoImplicit false

namespace SafeClock

/-- A point in time: seconds since the start of 1970, and nanoseconds into that second. -/
structure Instant where
  seconds : Int
  nanos : Nat
deriving DecidableEq, Repr

namespace Output.Time

/-- Digits of a number, filled up with zeros in front. -/
def padded (width n : Nat) : String :=
  let digits := Nat.toDigits 10 n
  String.ofList (List.replicate (width - digits.length) '0' ++ digits)

/-- The year, month and day that lie a number of days after the start of 1970. Years are counted
from March, so that the leap day is the last day of its year, and in eras of 400 years. -/
def civil (days : Int) : Int × Nat × Nat :=
  let shifted := days + 719468
  let era := Int.fdiv shifted 146097
  let dayOfEra := (shifted - era * 146097).toNat
  let yearOfEra :=
    (dayOfEra - dayOfEra / 1460 + dayOfEra / 36524 - dayOfEra / 146096) / 365
  let dayOfYear := dayOfEra - (365 * yearOfEra + yearOfEra / 4 - yearOfEra / 100)
  let fromMarch := (5 * dayOfYear + 2) / 153
  let day := dayOfYear - (153 * fromMarch + 2) / 5 + 1
  let month := if fromMarch < 10 then fromMarch + 3 else fromMarch - 9
  let year := (yearOfEra : Int) + era * 400
  (if month ≤ 2 then year + 1 else year, month, day)

/-- A year: four digits, and a sign in front if that is not enough. -/
def year (y : Int) : String :=
  if 0 ≤ y ∧ y ≤ 9999 then padded 4 y.toNat
  else (if y < 0 then "-" else "+") ++ padded 4 y.natAbs

/-- A part of a second, with as many groups of three digits as it needs. -/
def fraction (nanos : Nat) : String :=
  if nanos = 0 then ""
  else if nanos % 1000000 = 0 then "." ++ padded 3 (nanos / 1000000)
  else if nanos % 1000 = 0 then "." ++ padded 6 (nanos / 1000)
  else "." ++ padded 9 nanos

/-- Date and time of day, in universal time. A part of a second that exceeds one second belongs to
a leap second and shows as the second number 60. -/
def stamp (t : Instant) : String :=
  let days := Int.fdiv t.seconds 86400
  let inDay := (t.seconds - days * 86400).toNat
  let (y, month, day) := civil days
  let second := inDay % 60 + t.nanos / 1000000000
  year y ++ "-" ++ padded 2 month ++ "-" ++ padded 2 day ++ "T" ++
    padded 2 (inDay / 3600) ++ ":" ++ padded 2 (inDay / 60 % 60) ++ ":" ++ padded 2 second ++
    fraction (t.nanos % 1000000000) ++ "Z"

/-- The whole milliseconds between two points in time, cut off toward zero. -/
def milliseconds (start finish : Instant) : Int :=
  Int.tdiv
    ((finish.seconds - start.seconds) * 1000000000 + ((finish.nanos : Int) - start.nanos)) 1000000

/-- The quotient of two numbers, rounded to the nearest whole number, a tie to the even one. -/
def roundQuotient (num den : Nat) : Nat :=
  let q := num / den
  let r := num % den
  if 2 * r < den then q
  else if den < 2 * r then q + 1
  else q + q % 2

/-- The quotient of two positive numbers, rounded to 53 binary digits: the fraction returned is
the value itself. -/
def roundBinary (num den : Nat) : Nat × Nat :=
  let excess : Int := (Nat.log2 num : Int) - Nat.log2 den
  let scale (shift : Int) : Nat × Nat :=
    if 0 ≤ shift then (num, den * Nat.pow 2 shift.toNat) else (num * Nat.pow 2 (-shift).toNat, den)
  let unscale (digits : Nat) (shift : Int) : Nat × Nat :=
    if 0 ≤ shift then (digits * Nat.pow 2 shift.toNat, 1) else (digits, Nat.pow 2 (-shift).toNat)
  let fine := excess - 53
  let (n, d) := scale fine
  if n / d < 9007199254740992 then unscale (roundQuotient n d) fine
  else
    let (n, d) := scale (fine + 1)
    unscale (roundQuotient n d) (fine + 1)

/-- A number of milliseconds, shown in seconds with one decimal. -/
def seconds (ms : Int) : String :=
  let tenths :=
    if ms = 0 then 0
    else
      let (n, d) := roundBinary ms.natAbs 1
      let (n, d) := roundBinary n (1000 * d)
      roundQuotient (10 * n) d
  (if ms < 0 then "-" else "") ++ toString (tenths / 10) ++ "." ++ toString (tenths % 10)

end Output.Time

end SafeClock
