import SafeClock.Text.Expression

/-!
# How regular expressions are written

Expressions are written in two ways. In the basic one, the signs for groups, choices and most
repetitions are preceded by a backslash; in the extended one, they are not. A written expression is
first cut into signs, which are the same for both.
-/

set_option autoImplicit false

namespace SafeClock.Text.Expression

/-- A way of writing expressions. -/
structure Style where
  extended : Bool := false
  /-- Whether letters stand for themselves in either case. -/
  anyCase : Bool := false

/-- A sign of a written expression. -/
inductive Sign where
  /-- An expression of its own. -/
  | plain (e : Expression)
  | openGroup
  | closeGroup
  | bar
  | times (low : Nat) (high : Option Nat)

/-- The members of a set, in either case. -/
def inAnyCase (items : List SetItem) : List SetItem :=
  items ++ items.flatMap fun
    | .one c => [.one c.toLower, .one c.toUpper]
    | .range low high => [.range low.toLower high.toLower, .range low.toUpper high.toUpper]
    | .named "upper" => [.named "lower"]
    | .named "lower" => [.named "upper"]
    | .named _ => []

/-- A character that stands for itself. -/
def Style.one (style : Style) (c : Char) : Sign :=
  if style.anyCase then .plain (.set ⟨false, inAnyCase [.one c]⟩) else .plain (.one c)

/-- A set of characters. -/
def Style.set (style : Style) (s : CharacterSet) : Sign :=
  .plain (.set (if style.anyCase then { s with items := inAnyCase s.items } else s))

/-- The characters that words are made of. -/
def wordItems : List SetItem := [.named "alnum", .one '_']

/-- The number that digits write. -/
def number (digits : List Char) : Nat :=
  digits.foldl (fun n d => 10 * n + (d.toNat - '0'.toNat)) 0

/-- Reads the bounds of a repetition up to the brace that closes it. -/
def readBounds? (style : Style) (cs : List Char) : Option (Sign × List Char) :=
  let low := cs.takeWhile Char.isDigit
  let rest := cs.drop low.length
  let close (high : Option Nat) (rest : List Char) : Option (Sign × List Char) :=
    match style.extended, rest with
    | true, '\x7d' :: rest => some (.times (number low) high, rest)
    | false, '\\' :: '\x7d' :: rest => some (.times (number low) high, rest)
    | _, _ => none
  match rest with
  | ',' :: rest =>
    let high := rest.takeWhile Char.isDigit
    close (if high.isEmpty then none else some (number high)) (rest.drop high.length)
  | _ => if low.isEmpty then none else close (some (number low)) rest

/-- Reads the sign that a backslash and a character write in either way of writing. -/
def escaped (style : Style) (c : Char) : Sign :=
  match c with
  | 'n' => .plain (.one '\n')
  | 't' => .plain (.one '\t')
  | 'w' => .plain (.set ⟨false, wordItems⟩)
  | 'W' => .plain (.set ⟨true, wordItems⟩)
  | 's' => .plain (.set ⟨false, [.named "space"]⟩)
  | 'S' => .plain (.set ⟨true, [.named "space"]⟩)
  | 'b' | '<' | '>' => .plain (.edge true)
  | 'B' => .plain (.edge false)
  | '\x60' => .plain .start
  | '\'' => .plain .stop
  | _ => if c.isDigit ∧ c ≠ '0' then .plain (.same (number [c])) else style.one c

/-- Cuts an expression into signs; `first` if no sign that can be repeated stands before. -/
def readSigns? (style : Style) : (fuel : Nat) → (first : Bool) → List Char → Option (List Sign)
  | 0, _, _ => none
  | fuel + 1, first, cs =>
    let add (sign : Sign) (first : Bool) (rest : List Char) : Option (List Sign) :=
      (readSigns? style fuel first rest).map (sign :: ·)
    let bounds (rest : List Char) : Option (List Sign) :=
      match readBounds? style rest with
      | some (sign, rest) => add sign false rest
      | none => if style.extended then add (style.one '\x7b') false rest else none
    match cs with
    | [] => some []
    | '\\' :: c :: rest =>
      if style.extended then add (escaped style c) false rest
      else
        match c with
        | '(' => add .openGroup true rest
        | ')' => add .closeGroup false rest
        | '|' => add .bar true rest
        | '+' => if first then add (style.one '+') false rest else add (.times 1 none) false rest
        | '?' =>
          if first then add (style.one '?') false rest else add (.times 0 (some 1)) false rest
        | '\x7b' => if first then add (style.one '\x7b') false rest else bounds rest
        | _ => add (escaped style c) false rest
    | ['\\'] => none
    | '[' :: rest =>
      match readSet? ['^'] rest with
      | some (s, rest) => add (style.set s) false rest
      | none => none
    | '.' :: rest => add (.plain .any) false rest
    | '*' :: rest =>
      if first then add (style.one '*') false rest else add (.times 0 none) false rest
    | '^' :: rest =>
      if style.extended ∨ first then add (.plain .start) true rest
      else add (style.one '^') false rest
    | '$' :: rest =>
      let last := match rest with
        | [] => true
        | '\\' :: ')' :: _ => true
        | '\\' :: '|' :: _ => true
        | _ => style.extended
      add (if last then .plain .stop else style.one '$') false rest
    | c :: rest =>
      if style.extended then
        match c with
        | '(' => add .openGroup true rest
        | ')' => add .closeGroup false rest
        | '|' => add .bar true rest
        | '+' => if first then add (style.one '+') false rest else add (.times 1 none) false rest
        | '?' =>
          if first then add (style.one '?') false rest else add (.times 0 (some 1)) false rest
        | '\x7b' => if first then add (style.one '\x7b') false rest else bounds rest
        | _ => add (style.one c) false rest
      else add (style.one c) false rest

/-- Takes the repetitions that follow an expression. -/
def repeated (e : Expression) : List Sign → Expression × List Sign
  | .times low high :: rest => repeated (.times e low high) rest
  | rest => (e, rest)

mutual

/-- Puts an expression together from signs, up to the end of the group it stands in. `groups` is
how many groups have begun. -/
def choice? : (fuel : Nat) → (groups : Nat) → List Sign → Option (Expression × Nat × List Sign)
  | 0, _, _ => none
  | fuel + 1, groups, signs => do
    let (first, groups, rest) ← sequence? fuel groups signs
    match rest with
    | .bar :: rest =>
      let (second, groups, rest) ← choice? fuel groups rest
      return (.either first second, groups, rest)
    | _ => return (first, groups, rest)

/-- Puts an expression together from signs, up to a bar or the end of the group. -/
def sequence? : (fuel : Nat) → (groups : Nat) → List Sign → Option (Expression × Nat × List Sign)
  | 0, _, _ => none
  | fuel + 1, groups, signs => do
    match signs with
    | .plain e :: rest =>
      let (e, rest) := repeated e rest
      let (behind, groups, rest) ← sequence? fuel groups rest
      return (.both e behind, groups, rest)
    | .openGroup :: rest =>
      let (body, inner, rest) ← choice? fuel (groups + 1) rest
      match rest with
      | .closeGroup :: rest =>
        let (e, rest) := repeated (.group (groups + 1) body) rest
        let (behind, groups, rest) ← sequence? fuel inner rest
        return (.both e behind, groups, rest)
      | _ => none
    | .times _ _ :: rest => sequence? fuel groups rest
    | _ => return (.empty, groups, signs)

end

/-- Reads an expression. -/
def read? (style : Style) (cs : List Char) : Option Expression := do
  let signs ← readSigns? style (cs.length + 1) true cs
  let (e, _, rest) ← choice? (2 * signs.length + 2) 0 signs
  if rest.isEmpty then return e else none

/-- An expression that matches a text as it stands. -/
def ofText (style : Style) (cs : List Char) : Expression :=
  cs.foldr (fun c e =>
    match style.one c with
    | .plain x => .both x e
    | _ => e) .empty

end SafeClock.Text.Expression
