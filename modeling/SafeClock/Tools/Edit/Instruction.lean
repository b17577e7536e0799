import SafeClock.Text.Expression.Sign
import SafeClock.Tools.Basic

/-!
# Instructions for editing lines

An `Instruction` says what is done to a line, and its `Selection` to which lines it is done. Jumps
are by label, and blocks are marked by where they begin and end, so that a script is a plain list.
-/

set_option autoImplicit false

namespace SafeClock.Tools.Edit

open SafeClock.Text (Expression)

/-- What a line is selected by. An expression that is left out is the one used last. -/
inductive Address where
  | number (n : Nat)
  | last
  | found (e : Option Expression)
  | every (first step : Nat)

/-- The lines that an instruction is for. -/
inductive Lines where
  | all
  | at (a : Address)
  | between (first final : Address)
  /-- A line and some that follow it. -/
  | onward (first : Address) (more : Nat)

/-- The lines that an instruction is for, or all others. -/
structure Selection where
  lines : Lines := .all
  negated : Bool := false

/-- A piece of a replacement. -/
inductive Piece where
  | text (c : Char)
  | group (number : Nat)

/-- What is done to a line. -/
inductive Action where
  | substitute (e : Option Expression) (replacement : List Piece) (all : Bool) (least : Nat)
      (print : Bool)
  | transliterate (pairs : List (Char × Char))
  | print
  | printFirst
  | delete
  | deleteFirst
  | next
  | appendNext
  | keep
  | keepMore
  | recall
  | recallMore
  | exchange
  | number
  | append (text : List Char)
  | insert (text : List Char)
  | change (text : List Char)
  | quit (printing : Bool) (status : Nat)
  | label (name : List Char)
  | jump (name : List Char)
  /-- A jump that is made if something has been substituted, or has not. -/
  | jumpIf (substituted : Bool) (name : List Char)
  | openBlock
  | closeBlock

/-- An action, and the lines it is for. -/
structure Instruction where
  selection : Selection
  action : Action

/-! ## Reading -/

/-- Reads up to a delimiter. A backslash before the delimiter takes its meaning away. -/
def delimited? (mark : Char) (inExpression : Bool) : List Char → Option (List Char × List Char)
  | [] => none
  | '\\' :: c :: rest =>
    (delimited? mark inExpression rest).map fun (text, rest) =>
      if c = 'n' ∧ inExpression then ('\n' :: text, rest)
      else if c = mark ∧ (inExpression ∨ c ≠ '&') then (c :: text, rest)
      else ('\\' :: c :: text, rest)
  | c :: rest =>
    if c = mark then some ([], rest)
    else if c = '\n' ∧ inExpression then none
    else (delimited? mark inExpression rest).map fun (text, rest) => (c :: text, rest)

/-- The number at the start of a text, and the rest. -/
def leading (cs : List Char) : Nat × List Char :=
  let ds := cs.takeWhile Char.isDigit
  ((number? ds).getD 0, cs.drop ds.length)

/-- Passes over blanks. -/
def skipBlanks (cs : List Char) : List Char := cs.dropWhile fun c => c == ' ' || c == '\t'

/-- Reads an expression; an empty one is the one used last. -/
def expression? (style : Expression.Style) (text : List Char) : Option (Option Expression) :=
  if text.isEmpty then some none else (Expression.read? style text).map some

/-- Reads an address, if there is one: the outer option says whether it can be read. -/
def address? (extended : Bool) (cs : List Char) : Option (Option Address × List Char) :=
  let search (mark : Char) (rest : List Char) : Option (Option Address × List Char) := do
    let (text, rest) ← delimited? mark true rest
    let (anyCase, rest) := match rest with
      | 'I' :: rest => (true, rest)
      | _ => (false, rest)
    let e ← expression? { extended, anyCase } text
    return (some (.found e), rest)
  match cs with
  | '$' :: rest => some (some .last, rest)
  | '/' :: rest => search '/' rest
  | '\\' :: mark :: rest => search mark rest
  | c :: _ =>
    if c.isDigit then
      match leading cs with
      | (first, '~' :: rest) =>
        let (step, rest) := leading rest
        some (some (.every first step), rest)
      | (n, rest) => some (some (.number n), rest)
    else some (none, cs)
  | [] => some (none, cs)

/-- Reads the selection of an instruction. -/
def selection? (extended : Bool) (cs : List Char) : Option (Selection × List Char) := do
  let (first, rest) ← address? extended cs
  let rest := skipBlanks rest
  let (lines, rest) ← match first, rest with
    | none, _ => some (Lines.all, rest)
    | some a, ',' :: rest =>
      match skipBlanks rest with
      | '+' :: rest =>
        let (n, rest) := leading rest
        some (Lines.onward a n, rest)
      | rest => do
        let (second, rest) ← address? extended rest
        let second ← second
        some (Lines.between a second, rest)
    | some a, _ => some (Lines.at a, rest)
  let rest := skipBlanks rest
  match rest with
  | '!' :: rest => return (⟨lines, true⟩, skipBlanks rest)
  | _ => return (⟨lines, false⟩, rest)

/-- Reads a replacement. -/
def replacement : List Char → List Piece
  | [] => []
  | '\\' :: c :: rest =>
    let piece := if c.isDigit then Piece.group (c.toNat - '0'.toNat)
      else if c = 'n' then .text '\n'
      else if c = 't' then .text '\t'
      else .text c
    piece :: replacement rest
  | '&' :: rest => .group 0 :: replacement rest
  | c :: rest => .text c :: replacement rest

/-- The marks behind a substitution. -/
structure Flags where
  all : Bool := false
  print : Bool := false
  anyCase : Bool := false
  least : Nat := 1

/-- Reads the marks behind a substitution. -/
def flags : (fuel : Nat) → Flags → List Char → Flags × List Char
  | 0, f, cs => (f, cs)
  | fuel + 1, f, cs =>
    match cs with
    | 'g' :: rest => flags fuel { f with all := true } rest
    | 'p' :: rest => flags fuel { f with print := true } rest
    | 'i' :: rest => flags fuel { f with anyCase := true } rest
    | 'I' :: rest => flags fuel { f with anyCase := true } rest
    | c :: _ =>
      if c.isDigit then
        let (n, rest) := leading cs
        flags fuel { f with least := n } rest
      else (f, cs)
    | [] => (f, [])

/-- Removes the backslashes from the text of an exchange of characters. -/
def unescaped : List Char → List Char
  | '\\' :: 'n' :: rest => '\n' :: unescaped rest
  | '\\' :: c :: rest => c :: unescaped rest
  | c :: rest => c :: unescaped rest
  | [] => []

/-- Reads the text that is to be put out, which goes on behind a backslash at the end of a line. -/
def blockText : List Char → List Char × List Char
  | '\\' :: c :: rest =>
    let (text, rest) := blockText rest
    (c :: text, rest)
  | '\n' :: rest => ([], rest)
  | c :: rest =>
    let (text, rest) := blockText rest
    (c :: text, rest)
  | [] => ([], [])

/-- Reads an action. -/
def action? (extended : Bool) (cs : List Char) : Option (Action × List Char) :=
  let simple (a : Action) (rest : List Char) : Option (Action × List Char) := some (a, rest)
  let text (make : List Char → Action) (rest : List Char) : Option (Action × List Char) :=
    let rest := match skipBlanks rest with
      | '\\' :: '\n' :: rest => rest
      | '\\' :: rest => skipBlanks rest
      | rest => rest
    let (found, rest) := blockText rest
    some (make (found ++ ['\n']), rest)
  let label (make : List Char → Action) (rest : List Char) : Option (Action × List Char) :=
    let rest := skipBlanks rest
    let name := rest.takeWhile fun c => c != '\n' && c != ';' && c != ' ' && c != '\x7d'
    some (make name, rest.drop name.length)
  match cs with
  | 's' :: mark :: rest => do
    let (pattern, rest) ← delimited? mark true rest
    let (target, rest) ← delimited? mark false rest
    let (f, rest) := flags (rest.length + 1) {} rest
    let e ← expression? { extended, anyCase := f.anyCase } pattern
    return (.substitute e (replacement target) f.all f.least f.print, rest)
  | 'y' :: mark :: rest => do
    let (source, rest) ← delimited? mark true rest
    let (target, rest) ← delimited? mark true rest
    let (source, target) := (unescaped source, unescaped target)
    if source.length = target.length then return (.transliterate (source.zip target), rest)
    else none
  | 'p' :: rest => simple .print rest
  | 'P' :: rest => simple .printFirst rest
  | 'd' :: rest => simple .delete rest
  | 'D' :: rest => simple .deleteFirst rest
  | 'n' :: rest => simple .next rest
  | 'N' :: rest => simple .appendNext rest
  | 'h' :: rest => simple .keep rest
  | 'H' :: rest => simple .keepMore rest
  | 'g' :: rest => simple .recall rest
  | 'G' :: rest => simple .recallMore rest
  | 'x' :: rest => simple .exchange rest
  | '=' :: rest => simple .number rest
  | 'q' :: rest =>
    let (status, rest) := leading (skipBlanks rest)
    some (.quit true status, rest)
  | 'Q' :: rest =>
    let (status, rest) := leading (skipBlanks rest)
    some (.quit false status, rest)
  | 'a' :: rest => text .append rest
  | 'i' :: rest => text .insert rest
  | 'c' :: rest => text .change rest
  | ':' :: rest => label .label rest
  | 'b' :: rest => label .jump rest
  | 't' :: rest => label (.jumpIf true) rest
  | 'T' :: rest => label (.jumpIf false) rest
  | '\x7b' :: rest => simple .openBlock rest
  | '\x7d' :: rest => simple .closeBlock rest
  | _ => none

/-- Reads instructions. -/
def instructions? (extended : Bool) : (fuel : Nat) → List Char → Option (List Instruction)
  | 0, _ => none
  | fuel + 1, cs =>
    match cs.dropWhile fun c => c == ' ' || c == '\t' || c == '\n' || c == ';' with
    | [] => some []
    | '#' :: rest => instructions? extended fuel (rest.dropWhile (· != '\n'))
    | cs => do
      let (selection, rest) ← selection? extended cs
      let (action, rest) ← action? extended rest
      let behind := skipBlanks rest
      let proper : Bool := match action with
        | .openBlock => true
        | .append _ => true
        | .insert _ => true
        | .change _ => true
        | _ => behind.head?.all [';', '\n', '\x7d', '#'].contains
      if proper then
        return ⟨selection, action⟩ :: (← instructions? extended fuel rest)
      else none

end SafeClock.Tools.Edit
