import SafeClock.Text.Hexadecimal
import SafeClock.Yaml.Gap

/-!
# Quoted scalars

Between single quotes only the quote itself is special: it is written twice. Between double quotes a
backslash starts an escape, and a backslash at the end of a line joins it to the next one.
-/

set_option autoImplicit false

namespace SafeClock.Yaml.Scalar

/-- The character that an escape of one letter stands for. -/
def escaped? (c : Char) : Option Char :=
  match c with
  | '0' => some (Char.ofNat 0)
  | 'a' => some (Char.ofNat 7)
  | 'b' => some (Char.ofNat 8)
  | 't' | '\t' => some '\t'
  | 'n' => some '\n'
  | 'v' => some (Char.ofNat 11)
  | 'f' => some (Char.ofNat 12)
  | 'r' => some '\r'
  | 'e' => some (Char.ofNat 27)
  | ' ' => some ' '
  | '"' => some '"'
  | '/' => some '/'
  | '\\' => some '\\'
  | 'N' => some (Char.ofNat 0x85)
  | '_' => some (Char.ofNat 0xA0)
  | 'L' => some (Char.ofNat 0x2028)
  | 'P' => some (Char.ofNat 0x2029)
  | _ => none

/-- How many digits follow the letter of an escape by number. -/
def escapeWidth? (c : Char) : Option Nat :=
  match c with
  | 'x' => some 2
  | 'u' => some 4
  | 'U' => some 8
  | _ => none

/-- Reads up to the next gap, the closing quote or an escaped end of a line, which is passed over
(the last item of the answer is then true). Characters read are collected in reverse. -/
def quotedPart (single : Bool) :
    (fuel : Nat) → List Char → Cursor → Option (List Char × Cursor × Bool)
  | 0, part, c => some (part.reverse, c, false)
  | fuel + 1, part, c =>
    match c.rest with
    | [] => some (part.reverse, c, false)
    | x :: rest =>
      if isGap (some x) then some (part.reverse, c, false)
      else if single then
        if x ≠ '\'' then quotedPart single fuel (x :: part) (c.advance 1)
        else if rest.head? = some '\'' then quotedPart single fuel (x :: part) (c.advance 2)
        else some (part.reverse, c, false)
      else if x = '"' then some (part.reverse, c, false)
      else if x ≠ '\\' then quotedPart single fuel (x :: part) (c.advance 1)
      else
        match rest with
        | [] => none
        | y :: more =>
          if isBreak y then some (part.reverse, (c.advance 1).skipBreak, true)
          else
            match escaped? y, escapeWidth? y with
            | some z, _ => quotedPart single fuel (z :: part) (c.advance 2)
            | none, none => none
            | none, some width =>
              match Text.hexChar? width (more.take width) with
              | some z => quotedPart single fuel (z :: part) (c.advance (2 + width))
              | none => none

/-- Reads the parts of a quoted scalar, up to the closing quote. -/
def quotedParts (single : Bool) :
    (fuel : Nat) → List Char → Cursor → Option (List Char × Cursor)
  | 0, _, _ => none
  | fuel + 1, text, c =>
    if c.isDocumentMark ∨ c.isEnd then none
    else
      match quotedPart single (c.rest.length + 1) [] c with
      | none => none
      | some (part, c, joined) =>
        if c.at? (if single then '\'' else '"') then some (text ++ part, c.advance 1)
        else
          match Gap.read 0 { broken := joined } c with
          | none => none
          | some (g, c) => quotedParts single fuel (text ++ part ++ g.folded) c

/-- Reads a quoted scalar, from its opening quote on. -/
def quoted (single : Bool) (c : Cursor) : Option (List Char × Cursor) :=
  quotedParts single (c.rest.length + 1) [] (c.advance 1)

end SafeClock.Yaml.Scalar
