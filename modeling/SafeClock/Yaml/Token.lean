/-!
# Tokens of a document

A token is an indicator, a property of a node or a scalar. Besides the indicators that are written
in the text there are those that its indentation stands for: where a block collection starts, where
it ends, and where a key begins.
-/

set_option autoImplicit false

namespace SafeClock.Yaml

/-- A token. The end of the stream is the end of the list of tokens. -/
inductive Token where
  | version (major minor : Nat)
  /-- A handle for tags, and what it stands for. -/
  | tagHandle (handle lead : String)
  | documentStart
  | documentEnd
  | blockSequenceStart
  | blockMappingStart
  | blockEnd
  | flowSequenceStart
  | flowSequenceEnd
  | flowMappingStart
  | flowMappingEnd
  | blockEntry
  | flowEntry
  | key
  | value
  | alias (name : String)
  | anchor (name : String)
  | tag (handle suffix : String)
  /-- A scalar with its text; `plain` if it stands without quotes and not in a block of its own. -/
  | scalar (plain : Bool) (text : String)
deriving DecidableEq, Repr

end SafeClock.Yaml
