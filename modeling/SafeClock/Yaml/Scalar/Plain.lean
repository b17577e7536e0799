import SafeClock.Yaml.Gap

/-!
# Plain scalars

A plain scalar stands without quotes. It ends before a colon that a gap follows, before a comment,
before the next mark between documents, and where the text is indented too little; inside brackets
it also ends at a bracket or a comma.
-/

set_option autoImplicit false

namespace SafeClock.Yaml.Scalar

/-- Whether a plain scalar ends at a character in front of another one. -/
def endsPlain (flow : Bool) (x : Char) (next : Option Char) : Bool :=
  (x == ':' && isGap next) || (flow && [',', '[', ']', '\x7b', '\x7d'].contains x)

/-- Whether a colon inside brackets stands where it cannot. -/
def strayColon (flow : Bool) (x : Char) (next : Option Char) : Bool :=
  flow && x == ':' && next.any [',', '?', '[', ']', '\x7b', '\x7d'].contains

/-- The characters up to the next gap or the end of the scalar. -/
def plainPart (flow : Bool) : List Char → Option (List Char)
  | [] => some []
  | x :: rest =>
    if isGap (some x) then some []
    else if strayColon flow x rest.head? then none
    else if endsPlain flow x rest.head? then some []
    else (plainPart flow rest).map (x :: ·)

/-- Reads the parts of a plain scalar behind a gap. Answers the text, the place behind it, and
whether a line ended before that place. -/
def plainParts (flow : Bool) (indent : Nat) :
    (fuel : Nat) → List Char → Gap → Cursor → Option (List Char × Cursor × Bool)
  | 0, text, g, c => some (text, c, g.broken)
  | fuel + 1, text, g, c =>
    if c.isDocumentMark ∨ c.at? '#' then some (text, c, g.broken)
    else
      match plainPart flow c.rest with
      | none => none
      | some part =>
        let c := c.advance part.length
        let text := if part.isEmpty then text else text ++ g.folded ++ part
        let g : Gap := if part.isEmpty then g else {}
        if c.isEnd ∨ !isGap c.head? then some (text, c, g.broken)
        else
          match g.read indent c with
          | none => none
          | some (g, c) =>
            if !flow ∧ c.column < indent then some (text, c, g.broken)
            else plainParts flow indent fuel text g c

/-- Reads a plain scalar. -/
def plain (flow : Bool) (indent : Nat) (c : Cursor) : Option (List Char × Cursor × Bool) :=
  plainParts flow indent (c.rest.length + 1) [] {} c

end SafeClock.Yaml.Scalar
