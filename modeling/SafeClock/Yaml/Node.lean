import SafeClock.Yaml.Token.Stream

/-!
# The tree of a document

A node is a scalar, a list, a mapping, or an alias that stands for another node. The tree is read
off the tokens of a stream, which must hold at most one document.

Anchors are numbered. A name that is new gets the number of names before it, and a name that is used
again gets the number of names so far; should two nodes get the same number, an alias of that number
stands for the node that begins last.
-/

set_option autoImplicit false

namespace SafeClock.Yaml

/-- A node of a document. A tag is written out in full; `plain` is true of a scalar that stands
without quotes and not in a block of its own. -/
inductive Node where
  | scalar (plain : Bool) (tag : Option String) (text : String)
  | list (tag : Option String) (items : List Node)
  | mapping (tag : Option String) (entries : List (Node × Node))
  | alias (number : Nat)

/-- A document: its node, if it has one, and the nodes with anchors, in the order in which they
begin. -/
structure Document where
  root : Option Node
  anchored : List (Nat × Node)

namespace Node

/-- A scalar that is not there. -/
def missing : Node := .scalar true none ""

/-- What is left of the tokens, and what is known of the names in front of them. -/
structure Reading where
  tokens : List Token
  /-- The handles of tags, and what they stand for. -/
  handles : List (String × String) := []
  /-- The numbers of the names of anchors. -/
  names : List (String × Nat) := []
  /-- The number of anchors so far. -/
  anchors : Nat := 0
  /-- The nodes with anchors, each with its place among the anchors and its number. -/
  anchored : List (Nat × Nat × Node) := []

/-- Reads something off the tokens. -/
abbrev Parse := StateT Reading Option

/-- The next token, which is left where it is. -/
def peek : Parse (Option Token) := return (← get).tokens.head?

/-- Passes over the next token. -/
def skip : Parse Unit := modify fun r => { r with tokens := r.tokens.drop 1 }

/-- Numbers a name, and answers the place of the anchor and the number. -/
def register (name : String) : Parse (Nat × Nat) := do
  let r ← get
  let number := r.names.length
  set { r with
    names := (name, number) :: r.names.filter (·.1 != name)
    anchors := r.anchors + 1 }
  return (r.anchors, number)

/-- Keeps a node that has an anchor. -/
def keep (anchor : Option (Nat × Nat)) (n : Node) : Parse Node := do
  match anchor with
  | some (place, number) =>
    modify fun r => { r with anchored := (place, number, n) :: r.anchored }
    return n
  | none => return n

/-- Reads an alias. -/
def aliasOf (name : String) : Parse Node := do
  match (← get).names.find? (·.1 == name) with
  | some (_, number) => return .alias number
  | none => failure

/-- Reads an anchor, if one comes next. -/
def anchor? : Parse (Option (Nat × Nat)) := do
  match ← peek with
  | some (.anchor name) => skip; return some (← register name)
  | _ => return none

/-- Reads a tag, if one comes next, and writes it out in full. -/
def tag? : Parse (Option String) := do
  match ← peek with
  | some (.tag handle suffix) =>
    skip
    if handle.isEmpty then return some suffix
    else
      match (← get).handles.find? (·.1 == handle) with
      | some (_, lead) => return some (lead ++ suffix)
      | none => failure
  | _ => return none

/-- Reads an anchor and a tag, in either order. -/
def properties : Parse (Option (Nat × Nat) × Option String) := do
  match ← anchor? with
  | some anchor => return (some anchor, ← tag?)
  | none =>
    let tag ← tag?
    return (← if tag.isSome then anchor? else pure none, tag)

/-- Whether the next token is one of those that end a node which is not there. -/
def endsAt (tokens : List Token) : Parse Bool :=
  return (← peek).any tokens.contains

mutual

/-- Reads a node. Only a `block` node may be a block collection, and only an `indentless` one a list
whose dashes are not indented further than the keys around it. -/
def node : (fuel : Nat) → (block indentless : Bool) → Parse Node
  | 0, _, _ => failure
  | fuel + 1, block, indentless => do
    match ← peek with
    | some (.alias name) => skip; aliasOf name
    | _ =>
      let (anchor, tag) ← properties
      match ← peek, block, indentless with
      | some .blockEntry, _, true =>
        keep anchor (.list tag (← indentlessItems fuel))
      | some (.scalar plain text), _, _ =>
        skip
        keep anchor (.scalar plain (if tag = some "!" then none else tag) text)
      | some .flowSequenceStart, _, _ =>
        skip
        keep anchor (.list tag (← flowItems fuel true))
      | some .flowMappingStart, _, _ =>
        skip
        keep anchor (.mapping tag (← flowEntries fuel true))
      | some .blockSequenceStart, true, _ =>
        skip
        keep anchor (.list tag (← blockItems fuel))
      | some .blockMappingStart, true, _ =>
        skip
        keep anchor (.mapping tag (← blockEntries fuel))
      | _, _, _ =>
        if anchor.isSome ∨ tag.isSome then keep anchor (.scalar true tag "") else failure

/-- Reads the items of a block list, and its end. -/
def blockItems : (fuel : Nat) → Parse (List Node)
  | 0 => failure
  | fuel + 1 => do
    match ← peek with
    | some .blockEntry =>
      skip
      let item ← if ← endsAt [.blockEntry, .blockEnd] then pure missing else node fuel true false
      return item :: (← blockItems fuel)
    | some .blockEnd => skip; return []
    | _ => failure

/-- Reads the items of a list whose dashes are not indented. -/
def indentlessItems : (fuel : Nat) → Parse (List Node)
  | 0 => failure
  | fuel + 1 => do
    match ← peek with
    | some .blockEntry =>
      skip
      let item ←
        if ← endsAt [.blockEntry, .key, .value, .blockEnd] then pure missing
        else node fuel true false
      return item :: (← indentlessItems fuel)
    | _ => return []

/-- Reads the entries of a block mapping, and its end. -/
def blockEntries : (fuel : Nat) → Parse (List (Node × Node))
  | 0 => failure
  | fuel + 1 => do
    match ← peek with
    | some .key =>
      skip
      let key ←
        if ← endsAt [.key, .value, .blockEnd] then pure missing else node fuel true true
      let value ← blockValue fuel
      return (key, value) :: (← blockEntries fuel)
    | some .blockEnd => skip; return []
    | _ => failure

/-- Reads the value behind a key of a block mapping, if there is one. -/
def blockValue : (fuel : Nat) → Parse Node
  | 0 => failure
  | fuel + 1 => do
    match ← peek with
    | some .value =>
      skip
      if ← endsAt [.key, .value, .blockEnd] then pure missing else node fuel true true
    | _ => pure missing

/-- Reads the items of a list in brackets, and its end. An item may be a single entry of a
mapping. -/
def flowItems : (fuel : Nat) → (first : Bool) → Parse (List Node)
  | 0, _ => failure
  | fuel + 1, first => do
    if ← endsAt [.flowSequenceEnd] then
      skip
      return []
    else
      unless first do
        if ← endsAt [.flowEntry] then skip else failure
      match ← peek with
      | some .flowSequenceEnd => skip; return []
      | some .key =>
        skip
        let key ←
          if ← endsAt [.value, .flowEntry, .flowSequenceEnd] then
            skip
            pure missing
          else node fuel false false
        let value ← flowValue fuel .flowSequenceEnd
        return .mapping none [(key, value)] :: (← flowItems fuel false)
      | _ =>
        let item ← node fuel false false
        return item :: (← flowItems fuel false)

/-- Reads the entries of a mapping in braces, and its end. -/
def flowEntries : (fuel : Nat) → (first : Bool) → Parse (List (Node × Node))
  | 0, _ => failure
  | fuel + 1, first => do
    if ← endsAt [.flowMappingEnd] then
      skip
      return []
    else
      unless first do
        if ← endsAt [.flowEntry] then skip else failure
      match ← peek with
      | some .flowMappingEnd => skip; return []
      | some .key =>
        skip
        let key ←
          if ← endsAt [.value, .flowEntry, .flowMappingEnd] then pure missing
          else node fuel false false
        let value ← flowValue fuel .flowMappingEnd
        return (key, value) :: (← flowEntries fuel false)
      | _ =>
        let key ← node fuel false false
        return (key, missing) :: (← flowEntries fuel false)

/-- Reads the value behind a key inside brackets, if there is one. -/
def flowValue : (fuel : Nat) → (closing : Token) → Parse Node
  | 0, _ => failure
  | fuel + 1, closing => do
    if ← endsAt [.value] then
      skip
      if ← endsAt [.flowEntry, closing] then pure missing else node fuel false false
    else pure missing

end

/-- The handles that every document knows. -/
def commonHandles : List (String × String) :=
  [("!", "!"), ("!!", "tag:yaml.org,2002:")]

/-- Reads directives. Each may be given once, and the version must be 1.1 or 1.2. -/
def directives : List Token → (version : Bool) → List (String × String) →
    Option (List Token × List (String × String))
  | .version major minor :: rest, version, handles =>
    if version ∨ major ≠ 1 ∨ (minor ≠ 1 ∧ minor ≠ 2) then none else directives rest true handles
  | .tagHandle handle lead :: rest, version, handles =>
    if handles.any (·.1 == handle) then none
    else directives rest version ((handle, lead) :: handles)
  | tokens, _, handles => some (tokens, handles)

/-- Whether a document that starts with a mark has no node. -/
def isBare : List Token → Bool
  | [] => true
  | t :: _ =>
    match t with
    | .version _ _ | .tagHandle _ _ | .documentStart | .documentEnd => true
    | _ => false

/-- Reads a document behind its mark, if it has one. -/
def document (bare : Bool) : Parse Node := do
  let tokens := (← get).tokens
  if bare ∧ isBare tokens then return missing
  else node (4 * tokens.length + 4) true false

end Node

/-- The nodes with anchors in the order in which they begin. -/
def Document.ordered (anchored : List (Nat × Nat × Node)) : List (Nat × Node) :=
  (anchored.mergeSort fun a b => a.1 ≤ b.1).map Prod.snd

/-- Reads the only document of a stream, if there is one. -/
def Document.ofTokens? (tokens : List Token) : Option Document :=
  match tokens with
  | [] => some ⟨none, []⟩
  | first :: _ => do
    let (tokens, handles) ← Node.directives tokens false []
    let marked := Node.isBare [first]
    let tokens ←
      if marked then
        match tokens with
        | .documentStart :: rest => some rest
        | _ => none
      else some tokens
    let (root, r) ← (Node.document marked).run { tokens, handles := handles ++ Node.commonHandles }
    if r.tokens.dropWhile (· == .documentEnd) = [] then
      some ⟨some root, Document.ordered r.anchored⟩
    else none

end SafeClock.Yaml
