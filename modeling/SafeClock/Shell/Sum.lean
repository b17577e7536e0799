import SafeClock.Text.Hexadecimal

/-!
# Sums

A sum is worked out on whole numbers of 64 bits, which wrap around. It may read variables and
assign to them; a variable without a value counts as zero. What is not reached is not worked out:
neither the second operand of `&&` and `||` once the first decides, nor the arm of a choice that is
not taken.
-/

set_option autoImplicit false

namespace SafeClock.Shell

/-- A sum. -/
inductive Sum where
  | constant (n : Int)
  | named (name : String)
  | unary (operator : Char) (x : Sum)
  | binary (operator : String) (x y : Sum)
  | choice (condition x y : Sum)
  /-- An assignment, of a value or of what an operator makes of the old value and another one. -/
  | assign (name : String) (operator : Option String) (x : Sum)

namespace Sum

/-! ## Values -/

/-- The numbers of 64 bits, two to the power 64 of them. -/
def wordLimit : Nat := 18446744073709551616

/-- A number of 64 bits. -/
def wrap (n : Int) : Int := n.bmod wordLimit

/-- The number a truth value counts as. -/
def ofBool (b : Bool) : Int := if b then 1 else 0

/-- The bits of a number. -/
def bits (n : Int) : Nat := (n % wordLimit).toNat

/-- What an operator makes of two numbers; none when dividing by zero. -/
def combine (operator : String) (x y : Int) : Option Int :=
  match operator with
  | "+" => some (wrap (x + y))
  | "-" => some (wrap (x - y))
  | "*" => some (wrap (x * y))
  | "/" => if y = 0 then none else some (wrap (x.tdiv y))
  | "%" => if y = 0 then none else some (wrap (x.tmod y))
  | "<<" => some (wrap (x * Nat.pow 2 (bits y % 64)))
  | ">>" => some (x.fdiv (Nat.pow 2 (bits y % 64)))
  | "<" => some (ofBool (x < y))
  | "<=" => some (ofBool (x ≤ y))
  | ">" => some (ofBool (y < x))
  | ">=" => some (ofBool (y ≤ x))
  | "==" => some (ofBool (x == y))
  | "!=" => some (ofBool (x != y))
  | "&" => some (wrap (Int.ofNat (bits x &&& bits y)))
  | "^" => some (wrap (Int.ofNat (bits x ^^^ bits y)))
  | "|" => some (wrap (Int.ofNat (bits x ||| bits y)))
  | _ => some 0

/-- The number that digits of a base write. -/
def readDigits? (base : Nat) (digits : List Char) : Option Int :=
  if digits.isEmpty then none
  else
    (digits.foldlM (fun n d => do
      let v ← Text.hexValue? d
      if v < base then some (base * n + v) else none) 0).map fun n => wrap (Int.ofNat n)

/-- The number of a constant: in base 16 behind `0x`, in base 8 behind `0`, else in base 10. -/
def readConstant? (cs : List Char) : Option Int :=
  match cs with
  | '0' :: 'x' :: digits => readDigits? 16 digits
  | '0' :: 'X' :: digits => readDigits? 16 digits
  | '0' :: digits => if digits.isEmpty then some 0 else readDigits? 8 digits
  | _ => readDigits? 10 cs

/-- The number of a variable's value. -/
def readValue? (cs : List Char) : Option Int :=
  match cs with
  | [] => some 0
  | '-' :: rest => (readConstant? rest).map fun n => wrap (-n)
  | '+' :: rest => readConstant? rest
  | _ => readConstant? cs

/-! ## Reading -/

/-- A token of a sum. -/
inductive Token where
  | number (n : Int)
  | name (s : String)
  | sign (s : String)
deriving DecidableEq

/-- The signs of sums, those that others start with last. -/
def signs : List String :=
  [ "<<=", ">>=", "&&", "||", "==", "!=", "<=", ">=", "<<", ">>", "+=", "-=", "*=", "/=", "%=",
    "&=", "^=", "|=", "+", "-", "*", "/", "%", "<", ">", "&", "^", "|", "=", "!", "\x7e", "?", ":",
    "(", ")" ]

/-- Cuts a sum into tokens. -/
def tokens? : (fuel : Nat) → List Char → Option (List Token)
  | 0, _ => none
  | fuel + 1, cs =>
    match cs with
    | [] => some []
    | c :: rest =>
      if c = ' ' ∨ c = '\t' ∨ c = '\n' then tokens? fuel rest
      else
        let word := cs.takeWhile fun x => x.isAlphanum || x == '_'
        if c.isDigit then do
          let n ← readConstant? word
          return .number n :: (← tokens? fuel (cs.drop word.length))
        else if !word.isEmpty then do
          return .name (String.ofList word) :: (← tokens? fuel (cs.drop word.length))
        else do
          let sign ← signs.find? fun s => s.toList.isPrefixOf cs
          return .sign sign :: (← tokens? fuel (cs.drop sign.length))

/-- How tightly an operator binds; none for other signs. -/
def strength? (sign : String) : Option Nat :=
  match sign with
  | "||" => some 1
  | "&&" => some 2
  | "|" => some 3
  | "^" => some 4
  | "&" => some 5
  | "==" | "!=" => some 6
  | "<" | "<=" | ">" | ">=" => some 7
  | "<<" | ">>" => some 8
  | "+" | "-" => some 9
  | "*" | "/" | "%" => some 10
  | _ => none

/-- The operator of an assignment: the outer option says whether the sign is one. -/
def assignment? (sign : String) : Option (Option String) :=
  if sign = "=" then some none
  else if ["<<=", ">>=", "+=", "-=", "*=", "/=", "%=", "&=", "^=", "|="].contains sign then
    some (some (sign.dropEnd 1).toString)
  else none

mutual

/-- Reads an assignment or a choice. -/
def whole? : (fuel : Nat) → List Token → Option (Sum × List Token)
  | 0, _ => none
  | fuel + 1, tokens =>
    let choice : Option (Sum × List Token) := do
      let (condition, rest) ← operation? fuel 1 tokens
      match rest with
      | .sign "?" :: rest =>
        let (x, rest) ← whole? fuel rest
        match rest with
        | .sign ":" :: rest =>
          let (y, rest) ← whole? fuel rest
          return (.choice condition x y, rest)
        | _ => none
      | _ => return (condition, rest)
    match tokens with
    | .name name :: .sign sign :: rest =>
      match assignment? sign with
      | some operator => do
        let (x, rest) ← whole? fuel rest
        return (.assign name operator x, rest)
      | none => choice
    | _ => choice

/-- Reads an operation whose operators bind at least as tightly as `strength`. -/
def operation? : (fuel : Nat) → (strength : Nat) → List Token → Option (Sum × List Token)
  | 0, _, _ => none
  | fuel + 1, strength, tokens => do
    let (first, rest) ← operand? fuel tokens
    operators? fuel strength first rest

/-- Reads the operators and operands that follow an operand. -/
def operators? : (fuel : Nat) → (strength : Nat) → Sum → List Token → Option (Sum × List Token)
  | 0, _, _, _ => none
  | fuel + 1, strength, first, tokens =>
    match tokens with
    | .sign sign :: rest =>
      match strength? sign with
      | some s =>
        if strength ≤ s then do
          let (second, rest) ← operation? fuel (s + 1) rest
          operators? fuel strength (.binary sign first second) rest
        else some (first, tokens)
      | none => some (first, tokens)
    | _ => some (first, tokens)

/-- Reads an operand. -/
def operand? : (fuel : Nat) → List Token → Option (Sum × List Token)
  | 0, _ => none
  | fuel + 1, tokens =>
    match tokens with
    | .number n :: rest => some (.constant n, rest)
    | .name name :: rest => some (.named name, rest)
    | .sign "(" :: rest => do
      let (x, rest) ← whole? fuel rest
      match rest with
      | .sign ")" :: rest => return (x, rest)
      | _ => none
    | .sign sign :: rest =>
      match sign.toList with
      | [c] =>
        if ['-', '+', '!', '\x7e'].contains c then do
          let (x, rest) ← operand? fuel rest
          return (.unary c x, rest)
        else none
      | _ => none
    | [] => none

end

/-- Reads a sum. A sum of nothing is zero. -/
def read? (cs : List Char) : Option Sum := do
  let tokens ← tokens? (cs.length + 1) cs
  if tokens.isEmpty then return .constant 0
  let (x, rest) ← whole? (4 * tokens.length + 4) tokens
  if rest.isEmpty then return x else none

/-! ## Working out -/

/-- Why a sum has no result. -/
inductive Fault where
  | divisionByZero
  | notANumber (value : List Char)

/-- The variables a sum reads and assigns to. -/
abbrev Variables := String → List Char

/-- The number of a variable, after some assignments. -/
def look (read : Variables) (name : String) (made : List (String × Int)) : Except Fault Int :=
  match made.find? (·.1 == name) with
  | some (_, n) => .ok n
  | none =>
    match readValue? (read name) with
    | some n => .ok n
    | none => .error (.notANumber (read name))

/-- Works out a sum. Answers the result and the assignments, the latest first. -/
def value (read : Variables) : Sum → List (String × Int) → Except Fault (Int × List (String × Int))
  | constant n, made => .ok (n, made)
  | named v, made => return (← look read v made, made)
  | unary operator x, made => do
    let (n, made) ← x.value read made
    return (match operator with
      | '-' => wrap (-n)
      | '!' => ofBool (n == 0)
      | '\x7e' => -n - 1
      | _ => n, made)
  | binary "&&" x y, made => do
    let (n, made) ← x.value read made
    if n = 0 then return (0, made)
    else
      let (m, made) ← y.value read made
      return (ofBool (m != 0), made)
  | binary "||" x y, made => do
    let (n, made) ← x.value read made
    if n ≠ 0 then return (1, made)
    else
      let (m, made) ← y.value read made
      return (ofBool (m != 0), made)
  | binary operator x y, made => do
    let (n, made) ← x.value read made
    let (m, made) ← y.value read made
    match combine operator n m with
    | some k => return (k, made)
    | none => throw .divisionByZero
  | choice condition x y, made => do
    let (n, made) ← condition.value read made
    if n ≠ 0 then x.value read made else y.value read made
  | assign name none x, made => do
    let (n, made) ← x.value read made
    return (n, (name, n) :: made)
  | assign name (some operator) x, made => do
    let old ← look read name made
    let (n, made) ← x.value read made
    match combine operator old n with
    | some k => return (k, (name, k) :: made)
    | none => throw .divisionByZero

end Sum

end SafeClock.Shell
