import SafeClock.Text.Hexadecimal
import SafeClock.Value

/-!
# Documents written as JSON

Documents are written over several lines, each level two spaces further in, and the fields of a
record in the order of their names. Inside a text the quote, the backslash and the control
characters are escaped, and all other characters stand for themselves.
-/

set_option autoImplicit false

namespace SafeClock.Output.Json

/-- A character inside a quoted text. -/
def escape (c : Char) : String :=
  if c = '"' then "\\\""
  else if c = '\\' then "\\\\"
  else if c = '\n' then "\\n"
  else if c = '\r' then "\\r"
  else if c = '\t' then "\\t"
  else if c.toNat = 8 then "\\b"
  else if c.toNat = 12 then "\\f"
  else if c.toNat < 32 then
    "\\u00" ++ String.ofList [Text.hexDigit (c.toNat / 16), Text.hexDigit (c.toNat % 16)]
  else String.singleton c

/-- A text in quotes. -/
def quote (s : String) : String :=
  "\"" ++ String.join (s.toList.map escape) ++ "\""

/-- A line break and the indentation of a level. -/
def newline (level : Nat) : String :=
  "\n" ++ String.ofList (List.replicate (2 * level) ' ')

/-- Puts a field at its place among fields in the order of their names. -/
def insertField (field : String × String) : List (String × String) → List (String × String)
  | [] => [field]
  | f :: rest => if field.1 < f.1 then field :: f :: rest else f :: insertField field rest

/-- Parts between brackets, each on a line of its own. -/
def bracketed (level : Nat) (opening closing : String) (parts : List String) : String :=
  if parts.isEmpty then opening ++ closing
  else
    opening ++ newline (level + 1) ++ ("," ++ newline (level + 1)).intercalate parts ++
      newline level ++ closing

mutual

/-- A document at a level of indentation. -/
def renderAt (level : Nat) : Value → String
  | .null => "null"
  | .bool b => if b then "true" else "false"
  | .int i => toString i
  | .real literal => literal
  | .text s => quote s
  | .list items => bracketed level "[" "]" (renderItems (level + 1) items)
  | .record fields =>
    let sorted := (renderFields (level + 1) fields).foldr insertField []
    bracketed level "\x7b" "\x7d" (sorted.map fun (name, v) => quote name ++ ": " ++ v)

/-- The items of a list, each at a level of indentation. -/
def renderItems (level : Nat) : List Value → List String
  | [] => []
  | v :: rest => renderAt level v :: renderItems level rest

/-- The fields of a record with their values at a level of indentation. -/
def renderFields (level : Nat) : List (String × Value) → List (String × String)
  | [] => []
  | (name, v) :: rest => (name, renderAt level v) :: renderFields level rest

end

/-- A document written as JSON. -/
def render (v : Value) : String := renderAt 0 v

end SafeClock.Output.Json
