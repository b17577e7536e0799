import SafeClock.Text.Hexadecimal
import SafeClock.Yaml.Cursor
import SafeClock.Yaml.Token

/-!
# Properties of nodes, and directives

An anchor gives a node a name, an alias stands for the node of a name, and a tag says what kind of
node it is. A tag is a handle and a suffix, or stands between angle brackets as a whole. Directives
stand before a document; only those for the version and for tags are known.
-/

set_option autoImplicit false

namespace SafeClock.Yaml.Property

/-- A character that may follow the name of an anchor. -/
def endsName (c : Option Char) : Bool :=
  isGap c || c.any ['?', ':', ',', ']', '\x7d', '%', '@', '\x60'].contains

/-- Reads the name of an anchor or an alias, from its sign on. -/
def name (c : Cursor) : Option (String × Cursor) :=
  let (taken, c) := (c.advance 1).takeWhile isWord
  if taken.isEmpty ∨ !endsName c.head? then none else some (String.ofList taken, c)

/-- A character of a tag. Between angle brackets a tag may hold a comma and square brackets too. -/
def isTagChar (wide : Bool) (c : Char) : Bool :=
  isWord c ||
    [';', '/', '?', ':', '@', '&', '=', '+', '$', '.', '%', '!', '~', '*', '\'', '(', ')'].contains
      c ||
    (wide && [',', '[', ']'].contains c)

/-- The bytes of a tag, in which two digits behind a percent sign stand for a byte. -/
def tagBytes? : List Char → Option (List UInt8)
  | [] => some []
  | '%' :: a :: b :: rest =>
    match Text.hexValue? a, Text.hexValue? b, tagBytes? rest with
    | some high, some low, some bytes => some (UInt8.ofNat (16 * high + low) :: bytes)
    | _, _, _ => none
  | '%' :: _ => none
  | c :: rest => (tagBytes? rest).map (c.toString.toUTF8.toList ++ ·)

/-- The text of a tag. -/
def tagText? (cs : List Char) : Option String := do
  String.fromUTF8? (ByteArray.mk (← tagBytes? cs).toArray)

/-- Reads the characters of a tag behind a start that was read already. -/
def tagRest (wide : Bool) (start : List Char) (c : Cursor) : Option (String × Cursor) := do
  let (taken, c) := c.takeWhile (isTagChar wide)
  return (← tagText? (start ++ taken), c)

/-- Reads a handle: an exclamation mark, or two of them with a word between them. -/
def handle (c : Cursor) : List Char × Cursor :=
  let (word, c) := (c.advance 1).takeWhile isWord
  if c.at? '!' then ('!' :: word ++ ['!'], c.advance 1) else ('!' :: word, c)

/-- Whether what was read as a handle is one. -/
def isHandle (cs : List Char) : Bool :=
  cs.length ≥ 2 && cs.getLast? == some '!'

/-- Reads a tag between angle brackets, from the exclamation mark on. -/
def verbatim (c : Cursor) : Option (Token × Cursor) := do
  let (suffix, c) ← tagRest true [] (c.advance 2)
  if suffix.isEmpty ∨ !c.at? '>' then none else some (.tag "" suffix, c.advance 1)

/-- Reads a tag with a handle. An exclamation mark alone is a tag as a whole. -/
def shorthand (c : Cursor) : Option (Token × Cursor) := do
  let (start, next) := handle c
  if isHandle start then
    let (suffix, next) ← tagRest false [] next
    if suffix.isEmpty then none else some (.tag (String.ofList start) suffix, next)
  else
    let (suffix, next) ← tagRest false (start.drop 1) next
    some (if suffix.isEmpty then .tag "" "!" else .tag "!" suffix, next)

/-- Reads a tag. A gap follows it, or a comma inside brackets. -/
def tag (flow : Bool) (c : Cursor) : Option (Token × Cursor) := do
  let (token, c) ← if c.peek 1 = some '<' then verbatim c else shorthand c
  if isGap c.head? ∨ (flow ∧ c.at? ',') then some (token, c) else none

/-- Reads a number of at most nine digits. -/
def versionNumber (c : Cursor) : Option (Nat × Cursor) :=
  let (digits, c) := c.takeWhile Char.isDigit
  if digits.isEmpty ∨ 9 < digits.length then none
  else some (digits.foldl (fun n d => 10 * n + (d.toNat - '0'.toNat)) 0, c)

/-- Reads the number of a version, which has two parts. -/
def version (c : Cursor) : Option (Token × Cursor) := do
  let (major, c) ← versionNumber (c.dropWhile isSpace)
  if !c.at? '.' then none
  else
    let (minor, c) ← versionNumber (c.advance 1)
    some (.version major minor, c)

/-- Reads a handle, and what it stands for. -/
def tagHandle (c : Cursor) : Option (Token × Cursor) := do
  let c := c.dropWhile isSpace
  if !c.at? '!' then none
  else
    let (start, c) := handle c
    if (start ≠ ['!'] ∧ !isHandle start) ∨ !c.head?.any isSpace then none
    else
      let (lead, c) ← tagRest true [] (c.dropWhile isSpace)
      if lead.isEmpty ∨ !isGap c.head? then none
      else some (.tagHandle (String.ofList start) lead, c)

/-- Reads a directive, from the percent sign on, up to the end of its line. -/
def directive (c : Cursor) : Option (Token × Cursor) := do
  let (word, c) := (c.advance 1).takeWhile isWord
  if !isGap c.head? then none
  else
    let (token, c) ← match String.ofList word with
      | "YAML" => version c
      | "TAG" => tagHandle c
      | _ => none
    some (token, ← c.endLine?)

end SafeClock.Yaml.Property
