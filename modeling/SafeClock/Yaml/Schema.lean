import SafeClock.Text.Real
import SafeClock.Value
import SafeClock.Yaml.Node

/-!
# The values of nodes

A plain scalar is nothing, a truth value or a number if it is written like one, and any other scalar
is a text; a tag of the core set may ask for one of these kinds. Keys are texts, however they are
written. Nodes may be nested 128 deep, counting through aliases, so that a node that holds itself
has no value.
-/

set_option autoImplicit false

namespace SafeClock.Yaml

open SafeClock.Text

namespace Scalar

/-- Whether a scalar is written as nothing. -/
def isNull (s : String) : Bool :=
  ["null", "Null", "NULL", "~"].contains s

/-- Reads a truth value. -/
def readBool? (s : String) : Option Bool :=
  if ["true", "True", "TRUE"].contains s then some true
  else if ["false", "False", "FALSE"].contains s then some false
  else none

/-- The value of a digit in a base of at most sixteen. -/
def digit? (base : Nat) (c : Char) : Option Nat :=
  (hexValue? c).filter (· < base)

/-- Reads digits in a base; there is at least one of them. -/
def readBase? (base : Nat) (cs : List Char) : Option Nat :=
  if cs.isEmpty then none
  else (cs.mapM (digit? base)).map fun ds => ds.foldl (fun n d => base * n + d) 0

/-- Digits with a zero in front, which are no number. -/
def isPadded (cs : List Char) : Bool :=
  match dropSign cs with
  | '0' :: rest => !rest.isEmpty && rest.all Char.isDigit
  | _ => false

/-- Reads a number without its sign, in base ten or in a base that is marked. -/
def readMagnitude? (cs : List Char) : Option Nat :=
  match cs with
  | '0' :: 'x' :: rest => readBase? 16 rest
  | '0' :: 'o' :: rest => readBase? 8 rest
  | '0' :: 'b' :: rest => readBase? 2 rest
  | _ => if isPadded cs then none else readBase? 10 cs

/-- Reads a whole number. It must fit a word of 128 bits, which below zero is a signed one. -/
def readInt? (cs : List Char) : Option Int :=
  match cs with
  | '-' :: rest =>
    ((readMagnitude? rest).filter (· ≤ Nat.pow 2 127)).map fun n => -(n : Int)
  | _ => ((readMagnitude? (dropPlus cs)).filter (· < Nat.pow 2 128)).map fun n => (n : Int)

/-- Whether a scalar is written like a number that is infinite, or none at all. -/
def isSpecial (s : String) : Bool :=
  [".inf", ".Inf", ".INF", "+.inf", "+.Inf", "+.INF", "-.inf", "-.Inf", "-.INF", ".nan", ".NaN",
    ".NAN"].contains s

/-- Reads a number that need not be whole. -/
def readReal? (s : String) : Option Value :=
  if isSpecial s ∨ (Text.readReal? s.toList).any Real.isFinite then some (.real s) else none

/-- The value of a plain scalar without a tag. -/
def plainValue (s : String) : Value :=
  if s.isEmpty ∨ isNull s then .null
  else
    match readBool? s, readInt? s.toList with
    | some b, _ => .bool b
    | none, some i => .int i
    | none, none =>
      if isPadded s.toList then .text s else (readReal? s).getD (.text s)

/-- How the tags of the core set start. -/
def coreTag : String := "tag:yaml.org,2002:"

/-- The value of a scalar. A tag that the core set does not have makes it a text, but one that
belongs to the document alone is not understood. -/
def value? (plain : Bool) (tag : Option String) (s : String) : Option Value :=
  match tag with
  | none => some (if plain then plainValue s else .text s)
  | some tag =>
    if tag = coreTag ++ "bool" then (readBool? s).map .bool
    else if tag = coreTag ++ "int" then (readInt? s.toList).map .int
    else if tag = coreTag ++ "float" then readReal? s
    else if tag = coreTag ++ "null" then if isNull s then some .null else none
    else if tag.startsWith "!" then none
    else some (.text s)

end Scalar

/-- Whether the tag of a list or a mapping is understood. -/
def isUnderstood (tag : Option String) : Bool :=
  tag.all fun t => !t.startsWith "!"

namespace Document

/-- The node that a node stands for. -/
def target (d : Document) (n : Node) : Option Node :=
  match n with
  | .alias number => (d.anchored.reverse.find? (·.1 == number)).map Prod.snd
  | n => some n

/-- The text of a key. -/
def keyText? (d : Document) (n : Node) : Option String :=
  match d.target n with
  | some (.scalar _ _ text) => some text
  | _ => none

mutual

/-- The value of a node in which collections are nested at most `depth` deep. -/
def value? (d : Document) : (depth : Nat) → Node → Option Value
  | 0, n =>
    match d.target n with
    | some (.scalar plain tag text) => Scalar.value? plain tag text
    | _ => none
  | depth + 1, n =>
    match d.target n with
    | some (.scalar plain tag text) => Scalar.value? plain tag text
    | some (.list tag items) =>
      if isUnderstood tag then (items.mapM (d.value? depth)).map .list else none
    | some (.mapping tag entries) =>
      if isUnderstood tag then (d.fields? (depth + 1) entries).map .record else none
    | _ => none

/-- The fields of a mapping. Of several entries with one key the last counts. -/
def fields? (d : Document) : (depth : Nat) → List (Node × Node) → Option (List (String × Value))
  | 0, _ => none
  | depth + 1, entries => do
    let fields ← entries.mapM fun (key, v) => do
      return (← d.keyText? key, ← d.value? depth v)
    return fields.foldl (fun fields (key, v) => Value.set key v fields) []

end

/-- How deep collections may be nested. -/
def depthLimit : Nat := 128

/-- The value of a document that is a mapping, or that is empty. -/
def record? (d : Document) : Option Value :=
  match d.root with
  | none => some (.record [])
  | some (.scalar true _ "") => some (.record [])
  | some (.mapping _ entries) => (d.fields? depthLimit entries).map .record
  | _ => none

end Document

/-- Reads a text that holds one document, which is a mapping or empty. -/
def read? (text : String) : Option Value := do
  let tokens ← Token.ofText? text.toList
  (← Document.ofTokens? tokens).record?

end SafeClock.Yaml
