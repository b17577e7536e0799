/-!
# Commands of a shell

A shell reads words and puts commands together from them. A word is made of parts: text as it
stands, quoted text, and what is only known when the command runs: the values of parameters, the
output of other commands, and the results of sums.
-/

set_option autoImplicit false

namespace SafeClock.Shell

/-- What a redirection does to a descriptor. -/
inductive Direction where
  | read
  | write
  | append
  /-- Make it a copy of another descriptor, or close it. -/
  | copy
  /-- Read the lines that stand below the command. -/
  | here
deriving DecidableEq, Repr

/-- What is made of the value of a parameter. -/
inductive Operator where
  | value
  | length
  /-- Another value for one that is not set. -/
  | default
  /-- Another value, which is also assigned. -/
  | assign
  /-- A complaint. -/
  | complain
  /-- A value in the place of one that is set. -/
  | replace
  /-- The value without the shortest or longest start that matches. -/
  | dropStart (longest : Bool)
  /-- The value without the shortest or longest end that matches. -/
  | dropEnd (longest : Bool)
deriving DecidableEq, Repr

mutual

/-- A part of a word. -/
inductive Part where
  /-- Text as it stands. -/
  | literal (text : List Char)
  /-- Text in quotes. -/
  | quoted (text : List Char)
  /-- The value of a parameter; `strict` if an empty value counts as none. -/
  | parameter (quotes : Bool) (name : String) (operator : Operator) (strict : Bool)
      (argument : List Part)
  /-- The output of commands. -/
  | output (quotes : Bool) (body : List Command)
  /-- The result of a sum. -/
  | sum (quotes : Bool) (expression : List Part)

/-- A redirection of a descriptor. -/
inductive Redirection where
  | mk (descriptor : Nat) (direction : Direction) (target : List Part)

/-- A command. -/
inductive Command where
  | simple (line : Nat) (assignments : List (String × List Part)) (words : List (List Part))
      (redirections : List Redirection)
  /-- Commands each of which reads what the one before it writes. -/
  | pipeline (negated : Bool) (commands : List Command)
  /-- The second command is run if the first succeeds. -/
  | both (first second : Command)
  /-- The second command is run if the first fails. -/
  | either (first second : Command)
  /-- Commands one after the other, in the same shell. -/
  | group (body : List Command) (redirections : List Redirection)
  /-- Commands one after the other, in a copy of the shell. -/
  | inner (body : List Command) (redirections : List Redirection)
  | choice (condition body other : List Command) (redirections : List Redirection)
  /-- A loop that goes on as long as the condition succeeds, or fails. -/
  | loop (untilMet : Bool) (condition body : List Command) (redirections : List Redirection)
  /-- A loop over words, or over the arguments of the shell. -/
  | each (name : String) (words : Option (List (List Part))) (body : List Command)
      (redirections : List Redirection)
  | select (word : List Part) (arms : List (List (List Part) × List Command))
      (redirections : List Redirection)
  | define (name : String) (body : Command)

end

/-- A word of a command. -/
abbrev Word := List Part

instance : Inhabited Command := ⟨.group [] []⟩

end SafeClock.Shell
