/-!
# Values of a document

Configuration files, environment variables and the results of a command are all made of the same
values: nothing, truth values, numbers, texts, lists, and records of named fields. A record is an
association list; `set` keeps its keys distinct.

> **layers**: `merge` puts one value over another. Two records are merged field by field, and any
> other value hides what lies under it.
-/

set_option autoImplicit false

namespace SafeClock

/-- A value of a document. -/
inductive Value where
  | null
  | bool (b : Bool)
  | int (i : Int)
  /-- A number that is not written as a whole one; only its spelling is kept. -/
  | real (literal : String)
  | text (s : String)
  | list (items : List Value)
  | record (fields : List (String × Value))
deriving Repr

namespace Value

/-- A natural number as a value. -/
def nat (n : Nat) : Value := .int n

/-- The field of a given name. -/
def lookup (key : String) (fields : List (String × Value)) : Option Value :=
  (fields.find? (·.1 == key)).map Prod.snd

/-- The fields with one of them set: it keeps its place, and a new one goes to the end. -/
def set (key : String) (v : Value) : List (String × Value) → List (String × Value)
  | [] => [(key, v)]
  | (k, old) :: rest => if k = key then (k, v) :: rest else (k, old) :: set key v rest

mutual

/-- One value put over another. -/
def merge (under : Value) : Value → Value
  | .record upper =>
    match under with
    | .record fields => .record (mergeFields fields upper)
    | _ => .record upper
  | upper => upper

/-- Each field of the upper record put over the field of that name below it. -/
def mergeFields (under : List (String × Value)) :
    List (String × Value) → List (String × Value)
  | [] => under
  | (key, v) :: rest =>
    let merged := match lookup key under with
      | some old => merge old v
      | none => v
    mergeFields (set key merged under) rest

end

/-- The value found by following field names down from a value. -/
def atPath? : List String → Value → Option Value
  | [], v => some v
  | key :: path, .record fields => (lookup key fields).bind (atPath? path)
  | _ :: _, _ => none

end Value

end SafeClock
