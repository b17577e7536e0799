import SafeClock.Shell.Command

/-!
# Reading commands

A script is read one complete command at a time, so that what stands before an error is still run.
Words that steer the shell, such as `if` and `done`, only do so where a command may begin.

Every function that calls another one passes a smaller amount of fuel on; `fuelFor` is enough for
any script, because no function is called twice without a character being read in between.
-/

set_option autoImplicit false

namespace SafeClock.Shell

/-- What is left of a script, and the line it starts on. -/
structure Source where
  rest : List Char
  line : Nat := 1

/-- A script that cannot be read. -/
structure SyntaxError where
  line : Nat
  text : String
deriving DecidableEq, Repr

/-- Reads something off a script. -/
abbrev Parse := StateT Source (Except SyntaxError)

namespace Parse

/-- An amount of fuel that is enough for a script. -/
def fuelFor (script : List Char) : Nat := 16 * script.length + 64

/-- Gives up. -/
def fail {α : Type} (text : String) : Parse α := do
  throw ⟨(← get).line, "Syntax error: " ++ text⟩

/-- The character at a distance. -/
def peek (distance : Nat) : Parse (Option Char) := return (← get).rest[distance]?

/-- Passes over some characters. -/
def skip (n : Nat) : Parse Unit := do
  let s ← get
  let passed := s.rest.take n
  set { s with rest := s.rest.drop n, line := s.line + passed.count '\n' : Source }

/-- Takes characters as long as they satisfy `p`. -/
def takeWhile (p : Char → Bool) : Parse (List Char) := do
  let taken := (← get).rest.takeWhile p
  skip taken.length
  return taken

/-- A character that ends a word. -/
def isDelimiter (c : Char) : Bool :=
  [' ', '\t', '\n', ';', '&', '|', '<', '>', '(', ')'].contains c

/-- A character with a meaning of its own inside a word. -/
def isSpecial (c : Char) : Bool :=
  c == '\\' || c == '\'' || c == '"' || c == '$' || c == '\x60'

/-- A character that may begin a name. -/
def startsName (c : Char) : Bool := c.isAlpha || c == '_'

/-- A character of a name. -/
def isNameChar (c : Char) : Bool := c.isAlphanum || c == '_'

/-- The words that steer the shell and end what stands before them. -/
def closers : List String :=
  ["then", "else", "elif", "fi", "do", "done", "esac", "\x7d"]

/-- Passes over blanks and joined lines. -/
def skipBlanks : Parse Unit := do
  let rec blanks : List Char → Nat
    | ' ' :: rest => blanks rest + 1
    | '\t' :: rest => blanks rest + 1
    | '\\' :: '\n' :: rest => blanks rest + 2
    | _ => 0
  skip (blanks (← get).rest)

/-- Passes over blanks and a comment. -/
def skipComment : Parse Unit := do
  skipBlanks
  if (← peek 0) = some '#' then
    let _ ← takeWhile (· != '\n')

/-- Passes over blanks, comments and ends of lines, at most `fuel` of these. -/
def skipLines : (fuel : Nat) → Parse Unit
  | 0 => skipComment
  | fuel + 1 => do
    skipComment
    if (← peek 0) = some '\n' then
      skip 1
      skipLines fuel

/-- Passes over blanks, comments and ends of lines. -/
def skipGap : Parse Unit := do skipLines (← get).rest.length

/-- The word that comes next, if nothing in it is quoted or expanded; else the empty text. -/
def peekWord : Parse String := do
  let word := (← get).rest.takeWhile fun c => !isDelimiter c
  return if word.any isSpecial then "" else String.ofList word

/-- How the next token is named in a complaint. -/
def nextToken : Parse String := do
  let rest := (← get).rest
  let pair := String.ofList (rest.take 2)
  match rest.head? with
  | none => return "end of file"
  | some '\n' => return "newline"
  | some c =>
    if ["&&", "||", ";;", "<<", ">>"].contains pair then return "\"" ++ pair ++ "\""
    else if isDelimiter c then return "\"" ++ c.toString ++ "\""
    else
      let word ← peekWord
      if closers.contains word ∨ ["if", "while", "until", "for", "case", "in"].contains word then
        return "\"" ++ word ++ "\""
      else return "word"

/-- Complains about the next token. -/
def unexpected {α : Type} (wanted : Option String) : Parse α := do
  let found ← nextToken
  match wanted with
  | some w => fail (found ++ " unexpected (expecting \"" ++ w ++ "\")")
  | none => fail (found ++ " unexpected")

/-- Passes over a word that must come next. -/
def expectWord (word : String) : Parse Unit := do
  skipGap
  if (← peekWord) = word then skip word.length else unexpected (some word)

/-- Passes over a character that must come next. -/
def expectChar (c : Char) : Parse Unit := do
  skipGap
  if (← peek 0) = some c then skip 1 else unexpected (some c.toString)

/-- Runs a parser on another text. -/
def within {α : Type} (text : List Char) (p : Parse α) : Parse α := do
  let s ← get
  set { s with rest := text : Source }
  let x ← p
  set s
  return x

/-- The text between single quotes. -/
def singleQuoted : Parse (List Char) := do
  skip 1
  let text ← takeWhile (· != '\'')
  if (← peek 0).isNone then fail "Unterminated quoted string" else
  skip 1
  return text

/-- The text between back quotes, in which a backslash protects a dollar sign, a back quote and
itself. -/
def backQuoted : List Char → Option (List Char × Nat)
  | [] => none
  | '\x60' :: _ => some ([], 1)
  | '\\' :: c :: rest =>
    (backQuoted rest).map fun (text, n) =>
      (if c = '$' ∨ c = '\x60' ∨ c = '\\' then c :: text else '\\' :: c :: text, n + 2)
  | c :: rest => (backQuoted rest).map fun (text, n) => (c :: text, n + 1)

/-- Takes the lines below the current one, up to one that is `stop`, out of the script. -/
def takeLines (tabs : Bool) (stop : List Char) : Parse (List Char) := do
  let s ← get
  let here := s.rest.takeWhile (· != '\n')
  let rec collect : List (List Char) → List (List Char) × List (List Char)
    | [] => ([], [])
    | line :: rest =>
      let line := if tabs then line.dropWhile (· == '\t') else line
      if line = stop then ([], rest)
      else
        let (taken, rest) := collect rest
        (line :: taken, rest)
  match s.rest.drop here.length with
  | [] => return []
  | _ :: below =>
    let (taken, rest) := collect (below.splitOn '\n')
    let rest := if rest.isEmpty then [] else '\n' :: ['\n'].intercalate rest
    set { s with rest := here ++ rest : Source }
    return taken.flatMap (· ++ ['\n'])

/-- The operator at the start of a text, how long it is, and whether an empty value counts as
none. -/
def operator? : List Char → Option (Operator × Bool × Nat)
  | ':' :: '-' :: _ => some (.default, true, 2)
  | ':' :: '=' :: _ => some (.assign, true, 2)
  | ':' :: '?' :: _ => some (.complain, true, 2)
  | ':' :: '+' :: _ => some (.replace, true, 2)
  | '-' :: _ => some (.default, false, 1)
  | '=' :: _ => some (.assign, false, 1)
  | '?' :: _ => some (.complain, false, 1)
  | '+' :: _ => some (.replace, false, 1)
  | '#' :: '#' :: _ => some (.dropStart true, false, 2)
  | '#' :: _ => some (.dropStart false, false, 1)
  | '%' :: '%' :: _ => some (.dropEnd true, false, 2)
  | '%' :: _ => some (.dropEnd false, false, 1)
  | _ => none

/-- Takes the name of a parameter: a name, digits, or a single sign. -/
def parameterName : Parse String := do
  match ← peek 0 with
  | some c =>
    if startsName c then return String.ofList (← takeWhile isNameChar)
    else if c.isDigit then return String.ofList (← takeWhile Char.isDigit)
    else if ['@', '*', '#', '?', '-', '$', '!'].contains c then
      skip 1
      return c.toString
    else return ""
  | none => return ""

/-- Whether a text starts with an assignment, and the name that is assigned to. -/
def assignment? (cs : List Char) : Option String :=
  let name := cs.takeWhile isNameChar
  if name.head?.any startsName ∧ cs[name.length]? = some '=' then some (String.ofList name)
  else none

mutual

/-- Reads the parts of a word up to its end. In braces the word ends at the closing brace, and
otherwise at a delimiter. -/
def wordParts : (fuel : Nat) → (braces quotes : Bool) → Parse Word
  | 0, _, _ => fail "too deep"
  | fuel + 1, braces, quotes => do
    match ← peek 0 with
    | none => return []
    | some c =>
      if (braces && c == '\x7d') || (!braces && isDelimiter c) then return []
      else if c == '\\' then
        match ← peek 1 with
        | some '\n' =>
          skip 2
          wordParts fuel braces quotes
        | some x =>
          skip 2
          return .quoted [x] :: (← wordParts fuel braces quotes)
        | none =>
          skip 1
          return [.literal ['\\']]
      else if c == '\'' && !quotes then
        let text ← singleQuoted
        return .quoted text :: (← wordParts fuel braces quotes)
      else if c == '"' then
        skip 1
        let parts ← quotedParts fuel true
        return .quoted [] :: parts ++ (← wordParts fuel braces quotes)
      else if c == '$' then
        let part ← dollar fuel quotes
        return part :: (← wordParts fuel braces quotes)
      else if c == '\x60' then
        let part ← backQuote fuel quotes
        return part :: (← wordParts fuel braces quotes)
      else
        let text ← takeWhile fun x =>
          !isSpecial x && !(braces && x == '\x7d') && !(!braces && isDelimiter x)
        let text ← if text.isEmpty then do skip 1; pure [c] else pure text
        let part := if quotes then Part.quoted text else .literal text
        return part :: (← wordParts fuel braces quotes)

/-- Reads the parts of a text in double quotes behind the opening one; if not `closed`, up to the
end of the script. -/
def quotedParts : (fuel : Nat) → (closed : Bool) → Parse Word
  | 0, _ => fail "too deep"
  | fuel + 1, closed => do
    match ← peek 0 with
    | none => if closed then fail "Unterminated quoted string" else return []
    | some c =>
      if closed && c == '"' then
        skip 1
        return []
      else if c == '\\' then
        match ← peek 1 with
        | some '\n' =>
          skip 2
          quotedParts fuel closed
        | some x =>
          skip 2
          let text := if x == '$' || x == '\x60' || x == '\\' || (closed && x == '"') then [x]
            else ['\\', x]
          return .quoted text :: (← quotedParts fuel closed)
        | none =>
          skip 1
          return .quoted ['\\'] :: (← quotedParts fuel closed)
      else if c == '$' then
        let part ← dollar fuel true
        return part :: (← quotedParts fuel closed)
      else if c == '\x60' then
        let part ← backQuote fuel true
        return part :: (← quotedParts fuel closed)
      else
        let text ← takeWhile fun x =>
          x != '\\' && x != '$' && x != '\x60' && !(closed && x == '"')
        return .quoted text :: (← quotedParts fuel closed)

/-- Reads what a back quote starts. -/
def backQuote : (fuel : Nat) → (quotes : Bool) → Parse Part
  | 0, _ => fail "too deep"
  | fuel + 1, quotes => do
    skip 1
    match backQuoted (← get).rest with
    | none => fail "EOF in backquote substitution"
    | some (text, n) =>
      skip n
      return .output quotes (← within text (commands fuel))

/-- Reads what a dollar sign starts. -/
def dollar : (fuel : Nat) → (quotes : Bool) → Parse Part
  | 0, _ => fail "too deep"
  | fuel + 1, quotes => do
    skip 1
    match ← peek 0, ← peek 1 with
    | some '(', some '(' =>
      skip 2
      return .sum quotes (← sumParts fuel 0)
    | some '(', _ =>
      skip 1
      let body ← commands fuel
      expectChar ')'
      return .output quotes body
    | some '\x7b', next =>
      skip 1
      braced fuel quotes next
    | some c, _ =>
      if startsName c then
        return .parameter quotes (String.ofList (← takeWhile isNameChar)) .value false []
      else if c.isDigit || ['@', '*', '#', '?', '-', '$', '!'].contains c then
        skip 1
        return .parameter quotes c.toString .value false []
      else return .quoted ['$']
    | none, _ => return .quoted ['$']

/-- Reads a parameter in braces, behind the opening one, at which `next` stands. -/
def braced : (fuel : Nat) → (quotes : Bool) → (next : Option Char) → Parse Part
  | 0, _, _ => fail "too deep"
  | fuel + 1, quotes, next => do
    let lengthOf := next = some '#' ∧ (← peek 1) ≠ some '\x7d'
    if lengthOf then skip 1
    let name ← parameterName
    if name.isEmpty then fail "Bad substitution" else
    if (← peek 0) = some '\x7d' then
      skip 1
      return .parameter quotes name (if lengthOf then .length else .value) false []
    else
      match operator? (← get).rest with
      | none => fail "Bad substitution"
      | some (operator, strict, n) =>
        skip n
        let argument ← wordParts fuel true quotes
        if (← peek 0).isNone then fail "Missing '\x7d'" else
        skip 1
        return .parameter quotes name operator strict argument

/-- Reads the parts of a sum up to the two parentheses that close it, inside `depth` others. -/
def sumParts : (fuel : Nat) → (depth : Nat) → Parse Word
  | 0, _ => fail "too deep"
  | fuel + 1, depth => do
    match ← peek 0 with
    | none => fail "Missing '))'"
    | some c =>
      if c == '$' then
        let part ← dollar fuel true
        return part :: (← sumParts fuel depth)
      else if c == '\x60' then
        let part ← backQuote fuel true
        return part :: (← sumParts fuel depth)
      else if c == ')' && depth == 0 then
        if (← peek 1) = some ')' then
          skip 2
          return []
        else fail "Missing '))'"
      else
        skip 1
        let depth := if c == '(' then depth + 1 else if c == ')' then depth - 1 else depth
        let parts ← sumParts fuel depth
        return if c == '"' then parts else .quoted [c] :: parts

/-- Reads a redirection, if one comes next. -/
def redirection? : (fuel : Nat) → Parse (Option Redirection)
  | 0 => fail "too deep"
  | fuel + 1 => do
    let rest := (← get).rest
    let digits := rest.takeWhile Char.isDigit
    let behind := rest.drop digits.length
    let number (default : Nat) : Nat :=
      if digits.isEmpty then default
      else digits.foldl (fun n d => 10 * n + (d.toNat - '0'.toNat)) 0
    let found : Option (Nat × Direction × Nat) :=
      match behind with
      | '<' :: '<' :: _ => some (number 0, .here, 2)
      | '<' :: '&' :: _ => some (number 0, .copy, 2)
      | '<' :: '>' :: _ => some (number 0, .read, 2)
      | '<' :: _ => some (number 0, .read, 1)
      | '>' :: '>' :: _ => some (number 1, .append, 2)
      | '>' :: '&' :: _ => some (number 1, .copy, 2)
      | '>' :: '|' :: _ => some (number 1, .write, 2)
      | '>' :: _ => some (number 1, .write, 1)
      | _ => none
    match found with
    | none => return none
    | some (descriptor, direction, n) =>
      skip (digits.length + n)
      let tabs := direction = .here ∧ (← peek 0) = some '-'
      if tabs then skip 1
      skipBlanks
      let target ← wordParts fuel false false
      if target.isEmpty then unexpected none else
      if direction = .here then
        let plain := target.all fun
          | .literal _ => true
          | _ => false
        let stop := target.flatMap fun
          | .literal text => text
          | .quoted text => text
          | _ => []
        let body ← takeLines tabs stop
        let parts ← if plain then within body (quotedParts fuel false) else pure [.quoted body]
        return some (.mk descriptor .here parts)
      else return some (.mk descriptor direction target)

/-- Reads all redirections that come next. -/
def redirections : (fuel : Nat) → Parse (List Redirection)
  | 0 => fail "too deep"
  | fuel + 1 => do
    skipBlanks
    match ← redirection? fuel with
    | some r => return r :: (← redirections fuel)
    | none => return []

/-- Reads the words, assignments and redirections of a simple command. -/
def simpleParts : (fuel : Nat) →
    Parse (List (String × Word) × List Word × List Redirection)
  | 0 => fail "too deep"
  | fuel + 1 => do
    skipBlanks
    match ← redirection? fuel with
    | some r =>
      let (assignments, words, rs) ← simpleParts fuel
      return (assignments, words, r :: rs)
    | none =>
      match ← peek 0 with
      | none => return ([], [], [])
      | some c =>
        if isDelimiter c then return ([], [], [])
        else
          match assignment? (← get).rest with
          | some name =>
            skip (name.length + 1)
            let value ← wordParts fuel false false
            let (assignments, words, rs) ← simpleParts fuel
            return ((name, value) :: assignments, words, rs)
          | none =>
            let (words, rs) ← arguments fuel
            return ([], words, rs)

/-- Reads the words and redirections of a simple command. -/
def arguments : (fuel : Nat) → Parse (List Word × List Redirection)
  | 0 => fail "too deep"
  | fuel + 1 => do
    skipBlanks
    match ← redirection? fuel with
    | some r =>
      let (words, rs) ← arguments fuel
      return (words, r :: rs)
    | none =>
      match ← peek 0 with
      | none => return ([], [])
      | some c =>
        if isDelimiter c then return ([], [])
        else
          let word ← wordParts fuel false false
          let (words, rs) ← arguments fuel
          return (word :: words, rs)

/-- Reads the words of a list up to the end of its line. -/
def listWords : (fuel : Nat) → Parse (List Word)
  | 0 => fail "too deep"
  | fuel + 1 => do
    skipBlanks
    match ← peek 0 with
    | none => return []
    | some c =>
      if isDelimiter c then return []
      else
        let word ← wordParts fuel false false
        return word :: (← listWords fuel)

/-- Reads the patterns of an arm, which bars separate, up to the closing parenthesis. -/
def patterns : (fuel : Nat) → Parse (List Word)
  | 0 => fail "too deep"
  | fuel + 1 => do
    skipBlanks
    let word ← wordParts fuel false false
    skipBlanks
    match ← peek 0 with
    | some '|' =>
      skip 1
      return word :: (← patterns fuel)
    | some ')' =>
      skip 1
      return [word]
    | _ => unexpected (some ")")

/-- Reads the arms of a choice by patterns, and its end. -/
def arms : (fuel : Nat) → Parse (List (List Word × List Command))
  | 0 => fail "too deep"
  | fuel + 1 => do
    skipGap
    if (← peekWord) = "esac" then
      skip 4
      return []
    else
      if (← peek 0) = some '(' then skip 1
      let ps ← patterns fuel
      let body ← commands fuel
      skipGap
      if (← get).rest.take 2 = [';', ';'] then
        skip 2
        return (ps, body) :: (← arms fuel)
      else
        expectWord "esac"
        return [(ps, body)]

/-- Reads what stands between `do` and `done`. -/
def loopBody : (fuel : Nat) → Parse (List Command)
  | 0 => fail "too deep"
  | fuel + 1 => do
    expectWord "do"
    let body ← commands fuel
    expectWord "done"
    return body

/-- Reads what follows the condition of a choice. -/
def branches : (fuel : Nat) → Parse (List Command × List Command)
  | 0 => fail "too deep"
  | fuel + 1 => do
    expectWord "then"
    let body ← commands fuel
    skipGap
    match ← peekWord with
    | "else" =>
      skip 4
      let other ← commands fuel
      expectWord "fi"
      return (body, other)
    | "elif" =>
      skip 4
      let condition ← commands fuel
      let (second, other) ← branches fuel
      return (body, [.choice condition second other []])
    | _ =>
      expectWord "fi"
      return (body, [])

/-- Reads a command. -/
def command : (fuel : Nat) → Parse Command
  | 0 => fail "too deep"
  | fuel + 1 => do
    skipBlanks
    let line := (← get).line
    match ← peek 0 with
    | some '(' =>
      skip 1
      let body ← commands fuel
      if body.isEmpty then unexpected none else
      expectChar ')'
      return .inner body (← redirections fuel)
    | _ =>
      match ← peekWord with
      | "\x7b" =>
        skip 1
        let body ← commands fuel
        expectWord "\x7d"
        return .group body (← redirections fuel)
      | "if" =>
        skip 2
        let condition ← commands fuel
        let (body, other) ← branches fuel
        return .choice condition body other (← redirections fuel)
      | "while" =>
        skip 5
        let condition ← commands fuel
        let body ← loopBody fuel
        return .loop false condition body (← redirections fuel)
      | "until" =>
        skip 5
        let condition ← commands fuel
        let body ← loopBody fuel
        return .loop true condition body (← redirections fuel)
      | "for" =>
        skip 3
        skipBlanks
        let name ← takeWhile isNameChar
        if !name.head?.any startsName then fail "Bad for loop variable" else
        skipGap
        let words ←
          if (← peekWord) = "in" then
            skip 2
            let words ← listWords fuel
            pure (some words)
          else pure none
        skipBlanks
        if (← peek 0) = some ';' then skip 1
        let body ← loopBody fuel
        return .each (String.ofList name) words body (← redirections fuel)
      | "case" =>
        skip 4
        skipBlanks
        let word ← wordParts fuel false false
        expectWord "in"
        let found ← arms fuel
        return .select word found (← redirections fuel)
      | word =>
        let name := word.toList.takeWhile isNameChar
        let behind := ((← get).rest.drop name.length).dropWhile isBlank
        if !name.isEmpty ∧ name.length = word.length ∧ behind.head? = some '(' then
          skip name.length
          skipBlanks
          skip 1
          expectChar ')'
          skipGap
          return .define word (← command fuel)
        else if closers.contains word then unexpected none
        else
          let (assignments, words, rs) ← simpleParts fuel
          if assignments.isEmpty ∧ words.isEmpty ∧ rs.isEmpty then unexpected none
          else if (← peek 0) = some '(' then unexpected none
          else return .simple line assignments words rs
where
  isBlank (c : Char) : Bool := c == ' ' || c == '\t'

/-- Reads the commands of a pipeline behind the first bar. -/
def piped : (fuel : Nat) → Parse (List Command)
  | 0 => fail "too deep"
  | fuel + 1 => do
    skipBlanks
    if (← peek 0) = some '|' ∧ (← peek 1) ≠ some '|' then
      skip 1
      skipGap
      let c ← command fuel
      return c :: (← piped fuel)
    else return []

/-- Reads a pipeline. -/
def pipeline : (fuel : Nat) → Parse Command
  | 0 => fail "too deep"
  | fuel + 1 => do
    skipBlanks
    let negated := (← peekWord) = "!"
    if negated then skip 1
    let first ← command fuel
    let rest ← piped fuel
    return if rest.isEmpty ∧ !negated then first else .pipeline negated (first :: rest)

/-- Reads the pipelines that follow another one under a condition. -/
def chain : (fuel : Nat) → Command → Parse Command
  | 0, _ => fail "too deep"
  | fuel + 1, first => do
    skipBlanks
    match (← get).rest.take 2 with
    | ['&', '&'] =>
      skip 2
      skipGap
      let next ← pipeline fuel
      chain fuel (.both first next)
    | ['|', '|'] =>
      skip 2
      skipGap
      let next ← pipeline fuel
      chain fuel (.either first next)
    | _ => return first

/-- Reads the commands of one line. -/
def lineCommands : (fuel : Nat) → Parse (List Command)
  | 0 => fail "too deep"
  | fuel + 1 => do
    let first ← pipeline fuel
    let c ← chain fuel first
    skipComment
    match ← peek 0, ← peek 1 with
    | some ';', some ';' => return [c]
    | some ';', _ | some '&', _ =>
      skip 1
      skipComment
      match ← peek 0 with
      | none | some '\n' | some ')' => return [c]
      | some ';' => if (← peek 1) = some ';' then return [c] else unexpected none
      | _ => if closers.contains (← peekWord) then return [c] else return c :: (← lineCommands fuel)
    | _, _ => return [c]

/-- Reads commands up to one that cannot begin here, or to the end of the script. -/
def commands : (fuel : Nat) → Parse (List Command)
  | 0 => fail "too deep"
  | fuel + 1 => do
    skipGap
    match ← peek 0 with
    | none | some ')' => return []
    | some ';' => if (← peek 1) = some ';' then return [] else unexpected none
    | _ =>
      if closers.contains (← peekWord) then return []
      else
        let first ← lineCommands fuel
        return first ++ (← commands fuel)

end

/-- Reads the next complete commands of a script; none if it has ended. -/
def next : Parse (Option (List Command)) := do
  skipGap
  let fuel := fuelFor (← get).rest
  match ← peek 0 with
  | none => return none
  | _ =>
    let found ← lineCommands fuel
    match ← peek 0 with
    | none | some '\n' => return some found
    | _ => unexpected none

end Parse

end SafeClock.Shell
