import SafeClock.Text.Utf8

/-!
# Bytes as characters

Programs that work on bytes are given a text in which each character stands for the byte of its
number. Such a text can be cut and searched like any other, and no byte is lost on the way.
-/

set_option autoImplicit false

namespace SafeClock.Text.Bytes

/-- Each byte as the character of its number. -/
def spread (bytes : ByteArray) : List Char :=
  bytes.toList.map fun b => Char.ofNat b.toNat

/-- Each character as the byte of its number. -/
def gather (cs : List Char) : ByteArray :=
  ByteArray.mk (cs.map fun c => UInt8.ofNat c.toNat).toArray

/-- The bytes of a text. -/
def ofText (s : String) : List Char := spread s.toUTF8

/-- The text of bytes that need not be one. -/
def toText (cs : List Char) : String := Utf8.readLossy (gather cs)

end SafeClock.Text.Bytes
