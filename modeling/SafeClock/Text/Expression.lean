import SafeClock.Text.CharacterSet

/-!
# Regular expressions

An `Expression` says what a stretch of a text may look like. It is matched at one spot of a text at
a time; the ways to match it there come in the order in which repetitions take as much as they can.
Of these, the longest is taken, and of equally long ones the first. What a group stands for is kept
with the spot behind the match.

> **a match goes forward**: behind a match, no more of the text is left than before it
> (`length_rest_le_of_mem_ends`).
-/

set_option autoImplicit false

namespace SafeClock.Text

/-- What a stretch of a text may look like. -/
inductive Expression where
  | empty
  | any
  | one (c : Char)
  | set (s : CharacterSet)
  /-- The start of the text. -/
  | start
  /-- The end of the text. -/
  | stop
  /-- The edge of a word, or, if not `here`, any other spot. -/
  | edge (here : Bool)
  | group (number : Nat) (body : Expression)
  /-- The stretch that a group stands for. -/
  | same (number : Nat)
  | both (first second : Expression)
  | either (first second : Expression)
  /-- The body over and over: at least `low` times, and at most `high` times if that is given. -/
  | times (body : Expression) (low : Nat) (high : Option Nat)

/-- A spot in a text. -/
structure Spot where
  /-- The character before the spot. -/
  before : Option Char
  rest : List Char
  /-- The stretches that groups stand for. -/
  groups : List (Nat × List Char) := []

namespace Spot

/-- The stretch that a group stands for. -/
def group? (s : Spot) (number : Nat) : Option (List Char) :=
  (s.groups.find? (·.1 == number)).map Prod.snd

/-- The spot behind the first `n` characters. -/
def advance (s : Spot) (n : Nat) : Spot :=
  { s with
    before := if n = 0 then s.before else (s.rest.take n).getLast?.or s.before
    rest := s.rest.drop n }

/-- The spot behind the next character, if that is there and satisfies `p`. -/
def pass (p : Char → Bool) (s : Spot) : List Spot :=
  match s.rest with
  | c :: rest => if p c then [{ s with before := some c, rest }] else []
  | [] => []

/-- Whether the spot is at the edge of a word. -/
def isEdge (s : Spot) : Bool :=
  let inWord (c : Option Char) := c.any fun x => x.isAlphanum || x == '_'
  inWord s.before != inWord s.rest.head?

end Spot

namespace Expression

/-- The spots that are reached by taking a step over and over, from those after the most steps to
those after the fewest. Once there have been `low` steps, only those that go forward count. -/
def repeatStep (step : Spot → List Spot) : (fuel : Nat) → (low : Nat) → (high : Option Nat) →
    Spot → List Spot
  | 0, _, _, s => [s]
  | fuel + 1, low, high, s =>
    let next := if high = some 0 then []
      else (step s).filter fun t => 0 < low || t.rest.length < s.rest.length
    let far := next.flatMap (repeatStep step fuel (low - 1) (high.map (· - 1)))
    if low = 0 then far ++ [s] else far

/-- The spots behind the ways to match an expression at a spot. -/
def ends : Expression → Spot → List Spot
  | empty, s => [s]
  | any, s => s.pass fun _ => true
  | one c, s => s.pass (· == c)
  | set cs, s => s.pass cs.contains
  | start, s => if s.before.isNone then [s] else []
  | stop, s => if s.rest.isEmpty then [s] else []
  | edge here, s => if s.isEdge = here then [s] else []
  | group number body, s =>
    (body.ends s).map fun t =>
      { t with groups := (number, s.rest.take (s.rest.length - t.rest.length)) :: t.groups }
  | same number, s =>
    match s.group? number with
    | some text => if text.isPrefixOf s.rest then [s.advance text.length] else []
    | none => []
  | both first second, s => (first.ends s).flatMap second.ends
  | either first second, s => first.ends s ++ second.ends s
  | times body low high, s => repeatStep body.ends (s.rest.length + low + 1) low high s

theorem length_rest_le_of_mem_repeatStep (step : Spot → List Spot)
    (forward : ∀ s t, t ∈ step s → t.rest.length ≤ s.rest.length) :
    ∀ (fuel low : Nat) (high : Option Nat) (s t : Spot),
      t ∈ repeatStep step fuel low high s → t.rest.length ≤ s.rest.length := by
  intro fuel
  induction fuel with
  | zero => intro low high s t h; simp [repeatStep] at h; simp [h]
  | succ fuel ih =>
    intro low high s t h
    have far : t ∈ (if high = some 0 then []
        else (step s).filter fun t => 0 < low || t.rest.length < s.rest.length).flatMap
          (repeatStep step fuel (low - 1) (high.map (· - 1))) →
        t.rest.length ≤ s.rest.length := by
      intro h
      obtain ⟨u, hu, ht⟩ := List.mem_flatMap.mp h
      have hu : u ∈ step s := by
        split at hu
        · simp at hu
        · exact (List.mem_filter.mp hu).1
      exact Nat.le_trans (ih _ _ _ _ ht) (forward s u hu)
    unfold repeatStep at h
    by_cases hl : low = 0
    · simp only [hl, if_true] at h far
      rcases List.mem_append.mp h with h | h
      · exact far h
      · simp at h; simp [h]
    · simp only [hl, if_false] at h
      exact far h

theorem length_rest_le_of_mem_pass (p : Char → Bool) (s t : Spot) (h : t ∈ s.pass p) :
    t.rest.length ≤ s.rest.length := by
  unfold Spot.pass at h
  split at h
  · split at h
    · simp at h; simp_all
    · simp at h
  · simp at h

theorem length_rest_le_of_mem_ends (e : Expression) :
    ∀ s t, t ∈ e.ends s → t.rest.length ≤ s.rest.length := by
  induction e with
  | empty => intro s t h; simp [ends] at h; simp [h]
  | any => exact length_rest_le_of_mem_pass _
  | one c => exact length_rest_le_of_mem_pass _
  | set cs => exact length_rest_le_of_mem_pass _
  | start => intro s t h; simp [ends] at h; simp [h.2]
  | stop => intro s t h; simp [ends] at h; simp [h.2]
  | edge here => intro s t h; simp [ends] at h; simp [h.2]
  | group number body ih =>
    intro s t h
    simp only [ends, List.mem_map] at h
    obtain ⟨u, hu, rfl⟩ := h
    exact ih s u hu
  | same number =>
    intro s t h
    simp only [ends] at h
    split at h
    · split at h
      · simp at h; simp [h, Spot.advance]
      · simp at h
    · simp at h
  | both first second ih₁ ih₂ =>
    intro s t h
    simp only [ends, List.mem_flatMap] at h
    obtain ⟨u, hu, ht⟩ := h
    exact Nat.le_trans (ih₂ u t ht) (ih₁ s u hu)
  | either first second ih₁ ih₂ =>
    intro s t h
    simp only [ends, List.mem_append] at h
    exact h.elim (ih₁ s t) (ih₂ s t)
  | times body low high ih =>
    intro s t h
    exact length_rest_le_of_mem_repeatStep _ ih _ _ _ s t h

/-- The spot behind the longest match at a spot. -/
def matchAt? (e : Expression) (s : Spot) : Option Spot :=
  (e.ends s).foldl (fun best t =>
    match best with
    | none => some t
    | some b => if t.rest.length < b.rest.length then some t else some b) none

/-- The first match in a text that `before` stands before: what is passed over, and the spots where
the match begins and ends. -/
def search? (e : Expression) : (before : Option Char) → (text : List Char) →
    Option (List Char × Spot × Spot)
  | before, [] => (e.matchAt? ⟨before, [], []⟩).map fun t => ([], ⟨before, [], []⟩, t)
  | before, c :: cs =>
    match e.matchAt? ⟨before, c :: cs, []⟩ with
    | some t => some ([], ⟨before, c :: cs, []⟩, t)
    | none => (e.search? (some c) cs).map fun (passed, s, t) => (c :: passed, s, t)

/-- Whether an expression matches somewhere in a text. -/
def isFoundIn (e : Expression) (text : List Char) : Bool := (e.search? none text).isSome

end Expression

end SafeClock.Text
