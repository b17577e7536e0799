import SafeClock.Yaml.Property
import SafeClock.Yaml.Scalar.Block
import SafeClock.Yaml.Scalar.Plain
import SafeClock.Yaml.Scalar.Quoted

/-!
# The tokens of a text

Most tokens are read where they stand. Two things are only known later. That a token began a key
shows at the colon behind it, which must follow on the same line within 1024 characters; the
indicator of the key, and perhaps that of the mapping, is then inserted before the token. And that
a block collection ends shows at the next token that is indented less.

`Stream.step` reads one token. What it decides from is all in the state: the indentation of the
open block collections, and for each open bracket the place where a key may have begun.
-/

set_option autoImplicit false

namespace SafeClock.Yaml

/-- A place where a key may have begun. -/
structure KeyStart where
  /-- The number of tokens before it. -/
  tokens : Nat
  index : Nat
  line : Nat
  column : Nat
  /-- A key must begin here, as the indentation says. -/
  required : Bool

/-- The tokens read so far, and what is needed to read the next one. -/
structure Stream where
  cursor : Cursor
  tokens : Array Token := #[]
  /-- The column of the innermost block collection; negative outside of any. -/
  indent : Int := -1
  /-- The columns of the collections around it. -/
  outer : List Int := []
  /-- Whether a key may begin at the cursor. -/
  keyAllowed : Bool := true
  /-- Where a key may have begun inside the innermost brackets. -/
  keyStart : Option KeyStart := none
  /-- The same for the brackets around those, and for the text outside of any. -/
  outerKeys : List (Option KeyStart) := []

namespace Stream

/-- Whether the cursor is inside brackets. -/
def inFlow (s : Stream) : Bool := !s.outerKeys.isEmpty

/-- Adds a token and moves the cursor behind it. -/
def push (s : Stream) (t : Token) (c : Cursor) : Stream :=
  { s with tokens := s.tokens.push t, cursor := c }

/-- Adds an indicator of `n` characters. -/
def indicator (s : Stream) (t : Token) (n : Nat) : Stream :=
  s.push t (s.cursor.advance n)

/-- Gives up the place where a key may have begun, unless a key must begin there. -/
def dropKey (s : Stream) : Option Stream :=
  match s.keyStart with
  | some k => if k.required then none else some { s with keyStart := none }
  | none => some s

/-- The place of a key that begins at the cursor. -/
def keyHere (s : Stream) : KeyStart where
  tokens := s.tokens.size
  index := s.cursor.index
  line := s.cursor.line
  column := s.cursor.column
  required := !s.inFlow && s.indent == s.cursor.column

/-- Notes that a key may begin at the cursor. -/
def noteKey (s : Stream) : Option Stream :=
  if s.keyAllowed then s.dropKey.map fun s => { s with keyStart := some s.keyHere } else some s

/-- The place of a key, unless it is too far behind the cursor. -/
def fresh? (c : Cursor) : Option KeyStart → Option (Option KeyStart)
  | none => some none
  | some k =>
    if k.line < c.line ∨ k.index + 1024 < c.index then
      if k.required then none else some none
    else some (some k)

/-- Gives up the places of keys that are too far behind. -/
def dropStale (s : Stream) : Option Stream := do
  let keyStart ← fresh? s.cursor s.keyStart
  let outerKeys ← s.outerKeys.mapM (fresh? s.cursor)
  return { s with keyStart, outerKeys }

/-- Opens a block collection at a column that is further in; `place` says before which token. -/
def openBlock (s : Stream) (t : Token) (column place : Nat) : Stream :=
  if s.inFlow ∨ (column : Int) ≤ s.indent then s
  else
    { s with
      tokens := s.tokens.insertIdxIfInBounds place t
      outer := s.indent :: s.outer
      indent := column }

/-- Closes the block collections that are further in than a column. -/
def closeBlocks (column : Int) : Int → List Int → Array Token → Int × List Int × Array Token
  | indent, [], tokens => (indent, [], tokens)
  | indent, next :: outer, tokens =>
    if column < indent then closeBlocks column next outer (tokens.push .blockEnd)
    else (indent, next :: outer, tokens)

/-- Closes the block collections that end before a column. -/
def unroll (s : Stream) (column : Int) : Stream :=
  if s.inFlow then s
  else
    let (indent, outer, tokens) := closeBlocks column s.indent s.outer s.tokens
    { s with indent, outer, tokens }

/-- Passes over blanks, comments and ends of lines. A tab may not stand where a key may begin. -/
def skipGap : (fuel : Nat) → Stream → Stream
  | 0, s => s
  | fuel + 1, s =>
    let c := s.cursor
    let c := if c.column = 0 ∧ c.at? '\uFEFF' then c.advance 1 else c
    let tabs := s.inFlow || !s.keyAllowed
    let c := (c.dropWhile fun x => x == ' ' || (tabs && x == '\t')).skipComment
    match c.lineBreak? with
    | some (_, c) =>
      skipGap fuel { s with cursor := c, keyAllowed := s.keyAllowed || !s.inFlow }
    | none => { s with cursor := c }

/-- Ends everything that is open on the level of the document. -/
def reset (s : Stream) : Option Stream :=
  (s.unroll (-1)).dropKey.map fun s => { s with keyAllowed := false }

/-- Reads an opening bracket. -/
def openFlow (s : Stream) (t : Token) : Option Stream :=
  s.noteKey.map fun s =>
    { s with keyAllowed := true, keyStart := none, outerKeys := s.keyStart :: s.outerKeys }
      |>.indicator t 1

/-- Reads a closing bracket. -/
def closeFlow (s : Stream) (t : Token) : Option Stream :=
  s.dropKey.map fun s =>
    let s := { s with keyAllowed := false }
    match s.outerKeys with
    | keyStart :: outerKeys => { s with keyStart, outerKeys }.indicator t 1
    | [] => s.indicator t 1

/-- Reads a comma inside brackets. -/
def flowEntry (s : Stream) : Option Stream :=
  s.dropKey.map fun s => { s with keyAllowed := true }.indicator .flowEntry 1

/-- Reads the dash of an item. -/
def blockEntry (s : Stream) : Option Stream :=
  if !s.inFlow ∧ !s.keyAllowed then none
  else
    (s.openBlock .blockSequenceStart s.cursor.column s.tokens.size).dropKey.map fun s =>
      { s with keyAllowed := true }.indicator .blockEntry 1

/-- Reads the question mark of a key. -/
def explicitKey (s : Stream) : Option Stream :=
  if !s.inFlow ∧ !s.keyAllowed then none
  else
    (s.openBlock .blockMappingStart s.cursor.column s.tokens.size).dropKey.map fun s =>
      { s with keyAllowed := !s.inFlow }.indicator .key 1

/-- Reads the colon behind a key. -/
def value (s : Stream) : Option Stream :=
  match s.keyStart with
  | some k =>
    let s := { s with tokens := s.tokens.insertIdxIfInBounds k.tokens .key }
    let s := s.openBlock .blockMappingStart k.column k.tokens
    some ({ s with keyStart := none, keyAllowed := false }.indicator .value 1)
  | none =>
    if s.inFlow then some ({ s with keyAllowed := false }.indicator .value 1)
    else if !s.keyAllowed then none
    else
      let s := s.openBlock .blockMappingStart s.cursor.column s.tokens.size
      some ({ s with keyAllowed := true }.indicator .value 1)

/-- Reads something that may be a key, or a property of one, and behind which no key may begin. -/
def nodePart (s : Stream) (read : Cursor → Option (Token × Cursor)) : Option Stream := do
  let s ← s.noteKey
  let (token, c) ← read s.cursor
  return { s with keyAllowed := false }.push token c

/-- Reads a plain scalar. A key may begin on the line behind it. -/
def plainScalar (s : Stream) : Option Stream := do
  let s ← s.noteKey
  let (text, c, broken) ← Scalar.plain s.inFlow (s.indent + 1).toNat s.cursor
  return { s with keyAllowed := broken }.push (.scalar true (String.ofList text)) c

/-- Reads a block scalar. -/
def blockScalar (s : Stream) (literal : Bool) : Option Stream := do
  let s ← s.dropKey
  let (text, c) ← Scalar.block literal s.indent s.cursor
  return { s with keyAllowed := true }.push (.scalar false (String.ofList text)) c

/-- Reads a quoted scalar. -/
def quotedScalar (s : Stream) (single : Bool) : Option Stream :=
  s.nodePart fun c =>
    (Scalar.quoted single c).map fun (text, c) => (.scalar false (String.ofList text), c)

/-- Whether a plain scalar may start with a character, with another one behind it. -/
def startsPlain (flow : Bool) (x : Char) (next : Option Char) : Bool :=
  if x == '-' then !next.any isSpace
  else if x == '?' || x == ':' then !flow && !isGap next
  else
    !isGap (some x) &&
      !([',', '[', ']', '\x7b', '\x7d', '#', '&', '*', '!', '|', '>', '\'', '"', '%', '@',
        '\x60'].contains x)

/-- Reads the token at the cursor, which stands at a character `x`. -/
def token (s : Stream) (x : Char) : Option Stream :=
  let c := s.cursor
  let next := c.peek 1
  if c.column = 0 ∧ x = '%' then do
    let s ← s.reset
    let (token, c) ← Property.directive s.cursor
    return s.push token c
  else if c.isMark '-' then s.reset.map (·.indicator .documentStart 3)
  else if c.isMark '.' then s.reset.map (·.indicator .documentEnd 3)
  else if x = '[' then s.openFlow .flowSequenceStart
  else if x = '\x7b' then s.openFlow .flowMappingStart
  else if x = ']' then s.closeFlow .flowSequenceEnd
  else if x = '\x7d' then s.closeFlow .flowMappingEnd
  else if x = ',' then s.flowEntry
  else if x = '-' ∧ isGap next then s.blockEntry
  else if x = '?' ∧ (s.inFlow ∨ isGap next) then s.explicitKey
  else if x = ':' ∧ (s.inFlow ∨ isGap next) then s.value
  else if x = '*' then
    s.nodePart fun c => (Property.name c).map fun (name, c) => (.alias name, c)
  else if x = '&' then
    s.nodePart fun c => (Property.name c).map fun (name, c) => (.anchor name, c)
  else if x = '!' then s.nodePart (Property.tag s.inFlow)
  else if x = '|' ∧ !s.inFlow then s.blockScalar true
  else if x = '>' ∧ !s.inFlow then s.blockScalar false
  else if x = '\'' then s.quotedScalar true
  else if x = '"' then s.quotedScalar false
  else if startsPlain s.inFlow x next then s.plainScalar
  else none

/-- Reads one token behind a gap. At the end of the text the answer is final. -/
def step (s : Stream) : Option (Stream ⊕ Array Token) := do
  let s ← (skipGap (s.cursor.rest.length + 1) s).dropStale
  let s := s.unroll s.cursor.column
  match s.cursor.head? with
  | some x => return .inl (← s.token x)
  | none =>
    let s ← s.reset
    return .inr s.tokens

/-- Reads tokens up to the end of the text. -/
def run : (fuel : Nat) → Stream → Option (Array Token)
  | 0, _ => none
  | fuel + 1, s =>
    match s.step with
    | none => none
    | some (.inr tokens) => some tokens
    | some (.inl s) => run fuel s

end Stream

/-- The tokens of a text. There are none if the text holds a character that no document may hold, or
cannot be cut into tokens. -/
def Token.ofText? (text : List Char) : Option (List Token) :=
  if text.all isPrintable then
    (Stream.run (text.length + 1) { cursor := { rest := text } }).map Array.toList
  else none

end SafeClock.Yaml
