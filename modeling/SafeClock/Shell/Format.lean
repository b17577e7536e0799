/-!
# Formatted output

Text is put out with escapes in it, which begin with a backslash, and by formats, in which a percent
sign begins a place that an argument is put into. A format is gone through again as long as there
are arguments left.
-/

set_option autoImplicit false

namespace SafeClock.Shell.Format

/-! ## Escapes -/

/-- Whether a character is a digit of base 8. -/
def isOctal (c : Char) : Bool := '0' ≤ c && c ≤ '7'

/-- The byte that digits of base 8 write. -/
def octal (digits : List Char) : Char :=
  Char.ofNat (digits.foldl (fun n d => 8 * n + (d.toNat - '0'.toNat)) 0 % 256)

/-- Reads an escape behind the backslash: the character it stands for, and how many characters it
takes. What is no escape leaves the backslash as it is. -/
def escape (cs : List Char) : Char × Nat :=
  match cs with
  | '\\' :: _ => ('\\', 1)
  | 'a' :: _ => ('\x07', 1)
  | 'b' :: _ => ('\x08', 1)
  | 'f' :: _ => ('\x0c', 1)
  | 'n' :: _ => ('\n', 1)
  | 'r' :: _ => ('\r', 1)
  | 't' :: _ => ('\t', 1)
  | 'v' :: _ => ('\x0b', 1)
  | _ =>
    let digits := (cs.take 3).takeWhile isOctal
    if digits.isEmpty then ('\\', 0) else (octal digits, digits.length)

/-- Replaces the escapes of a text, and says whether one of them ends all output. -/
def unescape : (fuel : Nat) → List Char → List Char × Bool
  | 0, _ => ([], false)
  | fuel + 1, cs =>
    match cs with
    | [] => ([], false)
    | '\\' :: 'c' :: _ => ([], true)
    | '\\' :: '0' :: rest =>
      let digits := (rest.take 3).takeWhile isOctal
      let (text, ended) := unescape fuel (rest.drop digits.length)
      (octal digits :: text, ended)
    | '\\' :: rest =>
      let (c, n) := escape rest
      let (text, ended) := unescape fuel (rest.drop n)
      (c :: text, ended)
    | c :: rest =>
      let (text, ended) := unescape fuel rest
      (c :: text, ended)

/-- Words with spaces between them, with the escapes replaced, and with the end of a line behind
them unless the first word forbids it. -/
def echo (words : List (List Char)) : List Char :=
  let (words, close) := match words with
    | ['-', 'n'] :: rest => (rest, [])
    | _ => (words, ['\n'])
  let joined := [' '].intercalate words
  let (text, ended) := unescape (joined.length + 1) joined
  if ended then text else text ++ close

/-! ## Formats -/

/-- A place in a format. -/
structure Slot where
  flags : List Char
  width : Nat
  precision : Option Nat
  letter : Char

/-- Digits in a base, the highest first. -/
def digits (base : Nat) (upper : Bool) (n : Nat) : List Char :=
  (Nat.toDigits base n).map fun c => if upper then c.toUpper else c

namespace Slot

/-- Fills a text up to the width, on the left unless a flag asks for the right. -/
def fill (p : Slot) (text : List Char) : List Char :=
  let gap := List.replicate (p.width - text.length) ' '
  if p.flags.contains '-' then text ++ gap else gap ++ text

/-- A text in a place. -/
def ofText (p : Slot) (text : List Char) : List Char :=
  p.fill (match p.precision with
    | some n => text.take n
    | none => text)

/-- A number in a place, with what goes before its digits. -/
def ofDigits (p : Slot) (sign : List Char) (ds : List Char) : List Char :=
  let ds := if p.precision = some 0 ∧ ds = ['0'] then [] else ds
  let least := match p.precision with
    | some n => n
    | none =>
      if p.flags.contains '0' ∧ !p.flags.contains '-' then p.width - sign.length else 0
  p.fill (sign ++ List.replicate (least - ds.length) '0' ++ ds)

/-- A number with a sign in a place. -/
def ofInt (p : Slot) (n : Int) : List Char :=
  let sign := if n < 0 then ['-'] else if p.flags.contains '+' then ['+']
    else if p.flags.contains ' ' then [' '] else []
  p.ofDigits sign (digits 10 false n.natAbs)

/-- A number without a sign in a place. -/
def ofNat (p : Slot) (n : Nat) : List Char :=
  let alternative := p.flags.contains '#'
  match p.letter with
  | 'o' =>
    let ds := digits 8 false n
    p.ofDigits [] (if alternative ∧ ds.head? ≠ some '0' then '0' :: ds else ds)
  | 'x' => p.ofDigits (if alternative ∧ n ≠ 0 then ['0', 'x'] else []) (digits 16 false n)
  | 'X' => p.ofDigits (if alternative ∧ n ≠ 0 then ['0', 'X'] else []) (digits 16 true n)
  | _ => p.ofDigits [] (digits 10 false n)

end Slot

/-- What has been put out, what has been complained about, and which arguments are left. -/
structure Printed where
  output : List Char := []
  complaints : List (List Char) := []
  arguments : List (List Char)
  /-- Whether there is nothing more to put out. -/
  ended : Bool := false

namespace Printed

/-- With more text put out. -/
def put (p : Printed) (text : List Char) : Printed := { p with output := p.output ++ text }

/-- The next argument; empty if there is none. -/
def next (p : Printed) : List Char × Printed :=
  match p.arguments with
  | [] => ([], p)
  | x :: rest => (x, { p with arguments := rest })

/-- The next argument as a number. A number may be given by a character behind a quote; what is no
number, or only starts with one, is complained about. -/
def nextNumber (p : Printed) : Int × Printed :=
  match p.arguments with
  | [] => (0, p)
  | word :: rest =>
    let p := { p with arguments := rest }
    match word with
    | '"' :: c :: _ => (Int.ofNat c.toNat, p)
    | '\'' :: c :: _ => (Int.ofNat c.toNat, p)
    | _ =>
      let word' := word.dropWhile fun c => c == ' ' || (9 ≤ c.toNat && c.toNat ≤ 13)
      let (negative, body) := match word' with
        | '-' :: body => (true, body)
        | '+' :: body => (false, body)
        | body => (false, body)
      let (base, isDigit, body) : Nat × (Char → Bool) × List Char := match body with
        | '0' :: 'x' :: hex => (16, isHex, hex)
        | '0' :: 'X' :: hex => (16, isHex, hex)
        | '0' :: _ => (8, isOctal, body)
        | _ => (10, Char.isDigit, body)
      let ds := body.takeWhile isDigit
      let n := Int.ofNat (ds.foldl (fun n d => base * n + valueOf d) 0)
      let p := if ds.isEmpty then
          { p with complaints := p.complaints ++ [word ++ ": expected numeric value".toList] }
        else if ds.length < body.length then
          { p with complaints := p.complaints ++ [word ++ ": not completely converted".toList] }
        else p
      (if negative then -n else n, p)
where
  isHex (c : Char) : Bool := c.isDigit || ('a' ≤ c.toLower && c.toLower ≤ 'f')
  valueOf (c : Char) : Nat :=
    if c.isDigit then c.toNat - '0'.toNat else c.toLower.toNat - 'a'.toNat + 10

/-- Complains and ends. -/
def giveUp (p : Printed) (complaint : List Char) : Printed :=
  { p with complaints := p.complaints ++ [complaint], ended := true, arguments := [] }

/-- Puts the next argument into a place. -/
def place (p : Printed) (slot : Slot) : Printed :=
  match slot.letter with
  | 's' =>
    let (word, p) := p.next
    p.put (slot.ofText word)
  | 'c' =>
    let (word, p) := p.next
    p.put (slot.fill [word.head?.getD '\x00'])
  | 'b' =>
    let (word, p) := p.next
    let (text, ended) := unescape (word.length + 1) word
    let p := p.put (slot.ofText text)
    if ended then { p with ended := true, arguments := [] } else p
  | 'd' | 'i' =>
    let (n, p) := p.nextNumber
    p.put (slot.ofInt n)
  | 'o' | 'u' | 'x' | 'X' =>
    let (n, p) := p.nextNumber
    p.put (slot.ofNat (n % 18446744073709551616).toNat)
  | c => p.giveUp ('%' :: c :: ": invalid directive".toList)

/-- Reads a number, or takes it from the next argument in the place of a star. -/
def amount (p : Printed) (cs : List Char) : Nat × Bool × List Char × Printed :=
  match cs with
  | '*' :: rest =>
    let (n, p) := p.nextNumber
    (n.natAbs, n < 0, rest, p)
  | _ =>
    let ds := cs.takeWhile Char.isDigit
    (ds.foldl (fun n d => 10 * n + (d.toNat - '0'.toNat)) 0, false, cs.drop ds.length, p)

/-- Goes through a format once. -/
def once : (fuel : Nat) → List Char → Printed → Printed
  | 0, _, p => p
  | fuel + 1, cs, p =>
    if p.ended then p
    else
      match cs with
      | [] => p
      | '\\' :: rest =>
        let (c, n) := escape rest
        once fuel (rest.drop n) (p.put [c])
      | '%' :: '%' :: rest => once fuel rest (p.put ['%'])
      | '%' :: rest =>
        let flags := rest.takeWhile fun c => ['#', '-', '+', ' ', '0'].contains c
        let (width, left, rest, p) := p.amount (rest.drop flags.length)
        let flags := if left then '-' :: flags else flags
        let (precision, rest, p) := match rest with
          | '.' :: rest =>
            let (n, negative, rest, p) := p.amount rest
            (if negative then none else some n, rest, p)
          | _ => (none, rest, p)
        match rest with
        | [] => p.giveUp "missing format character".toList
        | c :: rest => once fuel rest (p.place ⟨flags, width, precision, c⟩)
      | c :: rest => once fuel rest (p.put [c])

/-- Goes through a format until no argument is left, or none is taken. -/
def all (format : List Char) : (fuel : Nat) → Printed → Printed
  | 0, p => p
  | fuel + 1, p =>
    let before := p.arguments.length
    let p := once (format.length + 1) format p
    if p.ended ∨ p.arguments.isEmpty ∨ p.arguments.length = before then p else all format fuel p

end Printed

/-- What a format and some arguments put out. -/
def printf (format : List Char) (arguments : List (List Char)) : Printed :=
  Printed.all format (arguments.length + 1) { arguments }

end SafeClock.Shell.Format
