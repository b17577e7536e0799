/-!
# Conditions

A condition is a list of words: tests of texts, numbers and files, put together with `!`, `-a`, `-o`
and parentheses. Three words of which the second is an operator are always a comparison, whatever
the other two look like.
-/

set_option autoImplicit false

namespace SafeClock.Shell.Condition

/-- Why a condition has no value. -/
inductive Fault where
  /-- A word without what should follow it, or with something that should not. -/
  | misplaced (word : List Char) (complaint : String)
  | notANumber (word : List Char)

/-- The text shown for a fault. -/
def Fault.text : Fault → List Char
  | misplaced [] complaint => complaint.toList
  | misplaced word complaint => word ++ ": ".toList ++ complaint.toList
  | notANumber word => "Illegal number: ".toList ++ word

/-- The tests of a single operand. -/
def unaryTests : List String :=
  [ "-r", "-w", "-x", "-e", "-f", "-d", "-c", "-b", "-p", "-u", "-g", "-k", "-s", "-t", "-z", "-n",
    "-h", "-L", "-O", "-G", "-S" ]

/-- The comparisons of two operands. -/
def comparisons : List String :=
  [ "=", "!=", "<", ">", "-eq", "-ne", "-ge", "-gt", "-le", "-lt", "-nt", "-ot", "-ef" ]

/-- Whether a word compares two operands. -/
def isComparison (word : List Char) : Bool := comparisons.contains (String.ofList word)

/-- Whether a word, followed by some others, tests an operand. -/
def isUnary (word : List Char) (rest : List (List Char)) : Bool :=
  unaryTests.contains (String.ofList word) &&
    match rest with
    | [] => false
    | [_] => true
    | next :: _ => !isComparison next

/-- Whether a character is blank. -/
def isBlank (c : Char) : Bool := c == ' ' || (9 ≤ c.toNat && c.toNat ≤ 13)

/-- The number that a word writes. -/
def number (word : List Char) : Except Fault Int :=
  let trimmed := ((word.dropWhile isBlank).reverse.dropWhile isBlank).reverse
  let (negative, digits) := match trimmed with
    | '-' :: digits => (true, digits)
    | '+' :: digits => (false, digits)
    | digits => (false, digits)
  if digits.isEmpty ∨ !digits.all Char.isDigit then .error (.notANumber word)
  else
    let n := Int.ofNat (digits.foldl (fun n d => 10 * n + (d.toNat - '0'.toNat)) 0)
    let n := if negative then -n else n
    if -9223372036854775808 ≤ n ∧ n < 9223372036854775808 then .ok n else .error (.notANumber word)

/-- What a comparison says of two operands. -/
def compare (operator x y : List Char) : Except Fault Bool :=
  match String.ofList operator with
  | "=" => .ok (x == y)
  | "!=" => .ok (x != y)
  | "<" => .ok (x < y)
  | ">" => .ok (y < x)
  | "-eq" => return (← number x) == (← number y)
  | "-ne" => return (← number x) != (← number y)
  | "-ge" => return decide ((← number y) ≤ (← number x))
  | "-gt" => return decide ((← number y) < (← number x))
  | "-le" => return decide ((← number x) ≤ (← number y))
  | "-lt" => return decide ((← number x) < (← number y))
  | "-ef" => .ok (x == y)
  | _ => .ok false

/-- What tests of files say: the letter of a test and the name of a file. -/
abbrev Files := Char → List Char → Bool

/-- What a test says of its operand. -/
def test (files : Files) (operator x : List Char) : Except Fault Bool :=
  match operator with
  | ['-', 'z'] => .ok x.isEmpty
  | ['-', 'n'] => .ok !x.isEmpty
  | ['-', 't'] => return (← number x) < 0
  | [_, letter] => .ok (files letter x)
  | _ => .ok false

/-- A value, the last word it was made of, and the words behind that. -/
abbrev Partial := Bool × List Char × List (List Char)

mutual

/-- Values of which one must hold. -/
def anyOf (files : Files) : (fuel : Nat) → List (List Char) → Except Fault Partial
  | 0, _ => .error (.misplaced [] "too deep")
  | fuel + 1, words => do
    let (x, last, rest) ← allOf files fuel words
    match rest with
    | ['-', 'o'] :: rest =>
      let (y, last, rest) ← anyOf files fuel rest
      return (x || y, last, rest)
    | _ => return (x, last, rest)

/-- Values that must all hold. -/
def allOf (files : Files) : (fuel : Nat) → List (List Char) → Except Fault Partial
  | 0, _ => .error (.misplaced [] "too deep")
  | fuel + 1, words => do
    let (x, last, rest) ← single files fuel words
    match rest with
    | ['-', 'a'] :: rest =>
      let (y, last, rest) ← allOf files fuel rest
      return (x && y, last, rest)
    | _ => return (x, last, rest)

/-- A value that is not put together from others with `-a` and `-o`, save in parentheses. -/
def single (files : Files) : (fuel : Nat) → List (List Char) → Except Fault Partial
  | 0, _ => .error (.misplaced [] "too deep")
  | fuel + 1, words =>
    match words with
    | [] => .ok (false, [], [])
    | ['!'] :: rest => do
      let (x, last, rest) ← single files fuel rest
      return (!x, if last.isEmpty then ['!'] else last, rest)
    | word :: rest =>
      if word = ['('] ∧ !rest.isEmpty then
        if rest.head? = some [')'] then .ok (false, [')'], rest.drop 1)
        else do
          let (x, _, rest) ← anyOf files fuel rest
          match rest with
          | [')'] :: rest => return (x, [')'], rest)
          | _ => throw (.misplaced [] "closing paren expected")
      else if isUnary word rest then
        match rest with
        | x :: rest => do return (← test files word x, x, rest)
        | [] => .error (.misplaced word "argument expected")
      else
        match rest with
        | operator :: rest' =>
          if isComparison operator then
            match rest' with
            | y :: rest' => do return (← compare operator word y, y, rest')
            | [] => .error (.misplaced operator "argument expected")
          else .ok (!word.isEmpty, word, rest)
        | [] => .ok (!word.isEmpty, word, [])

end

/-- The value of a condition of any length. -/
def general (files : Files) (words : List (List Char)) : Except Fault Bool := do
  let (x, last, rest) ← anyOf files (3 * words.length + 3) words
  if rest.isEmpty then return x else throw (.misplaced last "unexpected operator")

/-- The value of a condition. -/
def value (files : Files) : List (List Char) → Except Fault Bool
  | [] => .ok false
  | [x, operator, y] =>
    if isComparison operator then compare operator x y
    else if x = ['!'] then (general files [operator, y]).map not
    else general files [x, operator, y]
  | words => general files words

end SafeClock.Shell.Condition
