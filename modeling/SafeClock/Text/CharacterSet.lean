/-!
# Sets of characters in brackets

Patterns and regular expressions write a set of characters in brackets: single characters, ranges,
and named classes. Only characters of one byte are told apart by class.
-/

set_option autoImplicit false

namespace SafeClock.Text

/-- A member of a set in brackets. -/
inductive SetItem where
  | one (c : Char)
  | range (low high : Char)
  | named (name : String)
deriving DecidableEq, Repr

/-- Whether a character is of a named class. -/
def isOfClass (name : String) (c : Char) : Bool :=
  match name with
  | "alpha" => c.isAlpha
  | "digit" => c.isDigit
  | "alnum" => c.isAlphanum
  | "upper" => c.isUpper
  | "lower" => c.isLower
  | "space" => c == ' ' || (9 ≤ c.toNat && c.toNat ≤ 13)
  | "blank" => c == ' ' || c == '\t'
  | "punct" => 33 ≤ c.toNat && c.toNat ≤ 126 && !c.isAlphanum
  | "print" => 32 ≤ c.toNat && c.toNat ≤ 126
  | "graph" => 33 ≤ c.toNat && c.toNat ≤ 126
  | "cntrl" => c.toNat < 32 || c.toNat == 127
  | "xdigit" => c.isDigit || ('a' ≤ c && c ≤ 'f') || ('A' ≤ c && c ≤ 'F')
  | _ => false

/-- Whether a member of a set covers a character. -/
def SetItem.covers (c : Char) : SetItem → Bool
  | one x => x == c
  | range low high => low ≤ c && c ≤ high
  | named name => isOfClass name c

/-- A set of characters, or of all others. -/
structure CharacterSet where
  negated : Bool := false
  items : List SetItem

/-- Whether a set holds a character. -/
def CharacterSet.contains (s : CharacterSet) (c : Char) : Bool :=
  s.items.any (·.covers c) != s.negated

/-- Reads the members of a set up to the closing bracket, which is a member if it comes `first`.
Answers the rest behind the bracket; none if there is no bracket. -/
def readSetItems : (fuel : Nat) → (first : Bool) → List Char → Option (List SetItem × List Char)
  | 0, _, _ => none
  | fuel + 1, first, cs =>
    let add (item : SetItem) (rest : List Char) :=
      (readSetItems fuel false rest).map fun (items, rest) => (item :: items, rest)
    match cs with
    | [] => none
    | ']' :: rest => if first then add (.one ']') rest else some ([], rest)
    | '[' :: ':' :: rest =>
      let name := rest.takeWhile Char.isAlpha
      match rest.drop name.length with
      | ':' :: ']' :: rest => add (.named (String.ofList name)) rest
      | _ => add (.one '[') (':' :: rest)
    | low :: '-' :: high :: rest =>
      if high = ']' then add (.one low) ('-' :: high :: rest) else add (.range low high) rest
    | c :: rest => add (.one c) rest

/-- Reads a set behind its opening bracket. A set is negated by one of the characters in `not`. -/
def readSet? (not : List Char) (cs : List Char) : Option (CharacterSet × List Char) :=
  match cs with
  | c :: rest =>
    if not.contains c then
      (readSetItems (rest.length + 1) true rest).map fun (items, rest) => (⟨true, items⟩, rest)
    else (readSetItems (cs.length + 1) true cs).map fun (items, rest) => (⟨false, items⟩, rest)
  | [] => none

end SafeClock.Text
