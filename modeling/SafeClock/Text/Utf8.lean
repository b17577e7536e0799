/-!
# Bytes read as text

Bytes that are UTF-8 are read exactly. Where any bytes must be readable, `decodeLossy` puts the
replacement character in the place of each maximal run of bytes that starts a character and does
not go on as one.
-/

set_option autoImplicit false

namespace SafeClock.Text.Utf8

/-- Stands in for bytes that are no character. -/
def replacement : Char := Char.ofNat 0xFFFD

/-- How many bytes a character has whose first byte is `lead`, and between which bounds the second
one lies; none if no character of several bytes starts so. -/
def shape? (lead : UInt8) : Option (Nat × UInt8 × UInt8) :=
  if 0xC2 ≤ lead ∧ lead ≤ 0xDF then some (2, 0x80, 0xBF)
  else if lead = 0xE0 then some (3, 0xA0, 0xBF)
  else if lead = 0xED then some (3, 0x80, 0x9F)
  else if 0xE1 ≤ lead ∧ lead ≤ 0xEF then some (3, 0x80, 0xBF)
  else if lead = 0xF0 then some (4, 0x90, 0xBF)
  else if 0xF1 ≤ lead ∧ lead ≤ 0xF3 then some (4, 0x80, 0xBF)
  else if lead = 0xF4 then some (4, 0x80, 0x8F)
  else none

/-- A byte that continues a character. -/
def isTail (b : UInt8) : Bool := 0x80 ≤ b && b ≤ 0xBF

/-- The bytes behind the first that belong to a character which wants `count` of them. -/
def tails (count : Nat) (low high : UInt8) (bytes : List UInt8) : List UInt8 :=
  match bytes.take count with
  | [] => []
  | b :: rest => if low ≤ b ∧ b ≤ high then b :: rest.takeWhile isTail else []

/-- The number that a character's bytes carry. -/
def codePoint (count : Nat) (lead : UInt8) (rest : List UInt8) : Nat :=
  let bits := match count with
    | 2 => lead.toNat % 32
    | 3 => lead.toNat % 16
    | _ => lead.toNat % 8
  rest.foldl (fun n b => 64 * n + b.toNat % 64) bits

/-- The first character, and how many bytes behind the first one belong to it. -/
def first (lead : UInt8) (rest : List UInt8) : Char × Nat :=
  if lead < 0x80 then (Char.ofNat lead.toNat, 0)
  else
    match shape? lead with
    | none => (replacement, 0)
    | some (count, low, high) =>
      let found := tails (count - 1) low high rest
      if found.length = count - 1 then (Char.ofNat (codePoint count lead found), count - 1)
      else (replacement, found.length)

/-- The characters of any bytes. -/
def decodeLossy : List UInt8 → List Char
  | [] => []
  | lead :: rest =>
    let (c, used) := first lead rest
    c :: decodeLossy (rest.drop used)
termination_by bytes => bytes.length

/-- The text of any bytes. -/
def readLossy (bytes : ByteArray) : String :=
  match String.fromUTF8? bytes with
  | some s => s
  | none => String.ofList (decodeLossy bytes.toList)

end SafeClock.Text.Utf8
