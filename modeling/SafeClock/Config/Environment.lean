import SafeClock.Text.Blank
import SafeClock.Text.Hexadecimal
import SafeClock.Text.Real
import SafeClock.Value

/-!
# The environment as a layer of the configuration

A variable whose name starts with the program's own lead-in sets a field of the configuration. The
rest of the name is the path of the field, in any case of letters, with two underscores or a point
between its parts. The value is a number, a truth value, a list in square brackets, a record in
braces or a quoted text if all of it is written as one, and a text as it stands otherwise.
-/

set_option autoImplicit false

namespace SafeClock.Config.Environment

open SafeClock.Text

/-- How the names of the variables start that set a field. -/
def lead : String := "FREQPROF_"

/-- Blanks between the parts of a value. -/
def isSpace (c : Char) : Bool :=
  c == ' ' || c == '\t' || c == '\n' || c == '\r' || c == '\x0c'

/-- A character that ends a word. -/
def isSeparator (c : Char) : Bool :=
  c == ',' || c == '\x7b' || c == '\x7d' || c == '[' || c == ']'

/-- A character of a key. -/
def isKeyChar (c : Char) : Bool :=
  c.isAlphanum || c == '_' || c == '-'

/-- The value of a word. A number with a point in it is no whole one. -/
def word (cs : List Char) : Value :=
  let cs := trim cs
  if cs.contains '.' ∧ (readReal? cs).isSome then .real (String.ofList cs)
  else
    match readWord? 18446744073709551616 cs, readSigned? cs with
    | some n, _ => .nat n
    | none, some i => if -9223372036854775808 ≤ i ∧ i < 0 then .int i else .text (String.ofList cs)
    | none, none => .text (String.ofList cs)

/-- Reads a quoted text behind its opening quote, up to the closing one. -/
def quoted : (fuel : Nat) → List Char → Option (List Char × List Char)
  | 0, _ => none
  | fuel + 1, cs =>
    let and (c : Char) (rest : List Char) :=
      (quoted fuel rest).map fun (text, rest) => (c :: text, rest)
    match cs with
    | [] => none
    | '"' :: rest => some ([], rest)
    | '\\' :: '"' :: rest => and '"' rest
    | '\\' :: '\\' :: rest => and '\\' rest
    | '\\' :: 'b' :: rest => and '\x08' rest
    | '\\' :: 'f' :: rest => and '\x0c' rest
    | '\\' :: 'n' :: rest => and '\n' rest
    | '\\' :: 'r' :: rest => and '\r' rest
    | '\\' :: 't' :: rest => and '\t' rest
    | '\\' :: 'u' :: rest => (hexChar? 4 (rest.take 4)).bind fun c => and c (rest.drop 4)
    | '\\' :: 'U' :: rest => (hexChar? 8 (rest.take 8)).bind fun c => and c (rest.drop 8)
    | '\\' :: _ => none
    | c :: rest =>
      if c ≠ '\t' ∧ (c.toNat < 0x20 ∨ c.toNat = 0x7F) then none else and c rest

/-- Reads a key of a record. -/
def key (cs : List Char) : Option (String × List Char) :=
  match cs with
  | '"' :: rest =>
    (quoted (rest.length + 1) rest).map fun (text, rest) => (String.ofList text, rest)
  | _ =>
    let taken := cs.takeWhile isKeyChar
    if taken.isEmpty then none else some (String.ofList taken, cs.drop taken.length)

mutual

/-- Reads a value and the blanks around it. -/
def value : (fuel : Nat) → List Char → Option (Value × List Char)
  | 0, _ => none
  | fuel + 1, cs => do
    let (v, rest) ←
      match cs.dropWhile isSpace with
      | 't' :: 'r' :: 'u' :: 'e' :: rest => some (.bool true, rest)
      | 'f' :: 'a' :: 'l' :: 's' :: 'e' :: rest => some (.bool false, rest)
      | '\x7b' :: rest => do
        let (fields, rest) ← fields fuel [] rest
        some (Value.record fields, rest)
      | '[' :: rest => do
        let (items, rest) ← items fuel rest
        some (Value.list items, rest)
      | '"' :: rest => do
        let (text, rest) ← quoted (rest.length + 1) rest
        some (Value.text (String.ofList text), rest)
      | '\'' :: c :: '\'' :: rest => some (.text c.toString, rest)
      | '\'' :: _ => none
      | cs =>
        let taken := cs.takeWhile fun c => !isSeparator c
        some (word taken, cs.drop taken.length)
    some (v, rest.dropWhile isSpace)

/-- Reads the items of a list, and its closing bracket. A comma may stand behind the last item. -/
def items : (fuel : Nat) → List Char → Option (List Value × List Char)
  | 0, _ => none
  | fuel + 1, cs =>
    match cs with
    | ']' :: rest => some ([], rest)
    | _ => do
      let (v, rest) ← value fuel cs
      match rest with
      | ',' :: rest =>
        let (vs, rest) ← items fuel rest
        some (v :: vs, rest)
      | ']' :: rest => some ([v], rest)
      | _ => none

/-- Reads the fields of a record, and its closing brace, behind the fields so far. -/
def fields : (fuel : Nat) → List (String × Value) → List Char →
    Option (List (String × Value) × List Char)
  | 0, _, _ => none
  | fuel + 1, found, cs =>
    match cs with
    | '\x7d' :: rest => some (found, rest)
    | _ => do
      let (name, rest) ← key (cs.dropWhile isSpace)
      match rest.dropWhile isSpace with
      | '=' :: rest =>
        let (v, rest) ← value fuel rest
        let found := Value.set name v found
        match rest with
        | ',' :: rest => fields fuel found rest
        | '\x7d' :: rest => some (found, rest)
        | _ => none
      | _ => none

end

/-- The value of a variable. -/
def valueOf (text : String) : Value :=
  let cs := text.toList
  match value (2 * cs.length + 2) cs with
  | some (v, []) => v
  | _ => .text text

/-- The text with points in the place of double underscores. -/
def pointed : List Char → List Char
  | '_' :: '_' :: rest => '.' :: pointed rest
  | c :: rest => c :: pointed rest
  | [] => []

/-- The field that a variable sets, if it sets one. No part of its path may be empty. -/
def path? (name : String) : Option (List String) :=
  let cs := (trim name.toList).map Char.toLower
  let start := lead.toList.map Char.toLower
  if start.isPrefixOf cs then
    let parts := pieces (· == '.') (pointed (cs.drop start.length))
    if parts.any List.isEmpty then none else some (parts.map String.ofList)
  else none

/-- A record with a value at the end of a path. -/
def nested : List String → Value → Value
  | [], v => v
  | name :: path, v => .record [(name, nested path v)]

/-- The layer that the variables make, one put over another in their order. -/
def layer (environment : List (String × String)) : Value :=
  environment.foldl (fun under (name, text) =>
    match path? name with
    | some path => under.merge (nested path (valueOf text))
    | none => under) (.record [])

end SafeClock.Config.Environment
