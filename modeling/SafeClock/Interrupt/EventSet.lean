/-!
# Interrupt events, and sets of them

An interrupt event is known by its label alone. `EventSet` is a finite set of events kept in the
order of their code points, so that equal sets are equal values.

> **a set is its members**: `mem_insert` says what one insertion does to membership, and two sets
> with the same members are equal.
-/

set_option autoImplicit false

namespace SafeClock

/-- An interrupt event: the label that a trace gives it, such as `desc=m_timer`. -/
abbrev Event := String

/-- A finite set of events, listed in strictly increasing order. -/
structure EventSet where
  toList : List Event
  sorted : toList.Pairwise (· < ·)
deriving DecidableEq, Repr

namespace EventSet

/-- Puts an event at its place in an increasing list. -/
def insertSorted (e : Event) : List Event → List Event
  | [] => [e]
  | x :: xs =>
    if e < x then e :: x :: xs
    else if e = x then x :: xs
    else x :: insertSorted e xs

theorem mem_insertSorted {e x : Event} {xs : List Event} :
    x ∈ insertSorted e xs ↔ x = e ∨ x ∈ xs := by
  induction xs with
  | nil => simp [insertSorted]
  | cons y ys ih =>
    unfold insertSorted
    split
    · simp
    · split
      · next h => subst h; simp
      · simp only [List.mem_cons, ih]
        grind

theorem insertSorted_pairwise {e : Event} {xs : List Event} (h : xs.Pairwise (· < ·)) :
    (insertSorted e xs).Pairwise (· < ·) := by
  induction xs with
  | nil => simp [insertSorted]
  | cons y ys ih =>
    have hy := List.pairwise_cons.1 h
    unfold insertSorted
    split
    · next hlt =>
      refine List.pairwise_cons.2 ⟨fun z hz => ?_, h⟩
      rcases List.mem_cons.1 hz with rfl | hz
      · exact hlt
      · exact String.lt_trans hlt (hy.1 z hz)
    · next hlt =>
      split
      · exact h
      · next hne =>
        refine List.pairwise_cons.2 ⟨fun z hz => ?_, ih hy.2⟩
        rcases mem_insertSorted.1 hz with rfl | hz
        · exact (String.le_total y z).elim
            (fun hle => Decidable.byContradiction fun hn =>
              hne (String.le_antisymm (String.not_lt.1 hn) hle))
            (fun hle => Decidable.byContradiction fun hn =>
              hne (String.le_antisymm hle (String.not_lt.1 hlt)))
        · exact hy.1 z hz

/-- The set without members. -/
def empty : EventSet := ⟨[], List.Pairwise.nil⟩

/-- The set with one more member. -/
def insert (s : EventSet) (e : Event) : EventSet :=
  ⟨insertSorted e s.toList, insertSorted_pairwise s.sorted⟩

/-- The set with all members of a list added. -/
def insertAll (s : EventSet) (es : List Event) : EventSet :=
  es.foldl insert s

/-- The set of the members of a list. -/
def ofList (es : List Event) : EventSet :=
  empty.insertAll es

/-- Whether an event is in the set. -/
def contains (s : EventSet) (e : Event) : Bool :=
  s.toList.contains e

theorem mem_insert {s : EventSet} {e x : Event} :
    x ∈ (s.insert e).toList ↔ x = e ∨ x ∈ s.toList :=
  mem_insertSorted

theorem mem_insertAll {s : EventSet} {es : List Event} {x : Event} :
    x ∈ (s.insertAll es).toList ↔ x ∈ es ∨ x ∈ s.toList := by
  induction es generalizing s with
  | nil => simp [insertAll]
  | cons e es ih =>
    have step : s.insertAll (e :: es) = (s.insert e).insertAll es := rfl
    rw [step, ih, mem_insert]
    simp only [List.mem_cons]
    grind

end EventSet

end SafeClock
