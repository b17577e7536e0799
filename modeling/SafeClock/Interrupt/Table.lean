import SafeClock.Interrupt.EventSet

/-!
# Which event may follow which

A `TransitionTable` lists, for some events, the events that may come directly after them. An event
without an entry may be followed by nothing. Entries are kept in the order of their events, so a
table is determined by its keys and the relation it stands for.
-/

set_option autoImplicit false

namespace SafeClock

/-- The allowed successors of each listed event, in increasing order of the events. -/
structure TransitionTable where
  entries : List (Event × EventSet)
  sorted : entries.Pairwise (fun a b => a.1 < b.1)
deriving DecidableEq, Repr

namespace TransitionTable

/-- Adds successors to the entry of an event, and opens that entry if there is none. -/
def addSorted (e : Event) (next : List Event) : List (Event × EventSet) → List (Event × EventSet)
  | [] => [(e, EventSet.ofList next)]
  | (k, s) :: rest =>
    if e < k then (e, EventSet.ofList next) :: (k, s) :: rest
    else if e = k then (k, s.insertAll next) :: rest
    else (k, s) :: addSorted e next rest

theorem key_of_mem_addSorted {e : Event} {next : List Event} {entries : List (Event × EventSet)}
    {x : Event × EventSet} (h : x ∈ addSorted e next entries) :
    x.1 = e ∨ ∃ y ∈ entries, y.1 = x.1 := by
  induction entries with
  | nil => simp [addSorted] at h; simp [h]
  | cons y ys ih =>
    obtain ⟨k, s⟩ := y
    unfold addSorted at h
    split at h
    · rcases List.mem_cons.1 h with rfl | h
      · exact .inl rfl
      · exact .inr ⟨x, h, rfl⟩
    · split at h
      · next he =>
        rcases List.mem_cons.1 h with rfl | h
        · exact .inl he.symm
        · exact .inr ⟨x, List.mem_cons_of_mem _ h, rfl⟩
      · rcases List.mem_cons.1 h with rfl | h
        · exact .inr ⟨(k, s), List.mem_cons_self, rfl⟩
        · rcases ih h with h | ⟨y, hy, he⟩
          · exact .inl h
          · exact .inr ⟨y, List.mem_cons_of_mem _ hy, he⟩

theorem addSorted_pairwise {e : Event} {next : List Event} {entries : List (Event × EventSet)}
    (h : entries.Pairwise (fun a b => a.1 < b.1)) :
    (addSorted e next entries).Pairwise (fun a b => a.1 < b.1) := by
  induction entries with
  | nil => simp [addSorted]
  | cons y ys ih =>
    obtain ⟨k, s⟩ := y
    have hy := List.pairwise_cons.1 h
    unfold addSorted
    split
    · next hlt =>
      refine List.pairwise_cons.2 ⟨fun z hz => ?_, h⟩
      rcases List.mem_cons.1 hz with rfl | hz
      · exact hlt
      · exact String.lt_trans hlt (hy.1 z hz)
    · next hlt =>
      split
      · exact List.pairwise_cons.2 ⟨hy.1, hy.2⟩
      · next hne =>
        refine List.pairwise_cons.2 ⟨fun z hz => ?_, ih hy.2⟩
        rcases key_of_mem_addSorted hz with hk | ⟨y, hy', hk⟩
        · refine Decidable.byContradiction fun hn => hne ?_
          rw [hk] at hn
          exact String.le_antisymm (String.not_lt.1 hn) (String.not_lt.1 hlt)
        · exact hk ▸ hy.1 y hy'

/-- The table without entries. -/
def empty : TransitionTable := ⟨[], List.Pairwise.nil⟩

/-- The table with successors added to the entry of an event. -/
def add (t : TransitionTable) (e : Event) (next : List Event) : TransitionTable :=
  ⟨addSorted e next t.entries, addSorted_pairwise t.sorted⟩

/-- The table of a list of entries; entries of one event are merged. -/
def ofList (pairs : List (Event × List Event)) : TransitionTable :=
  pairs.foldl (fun t pair => t.add pair.1 pair.2) empty

/-- The successors listed for an event, none if it has no entry. -/
def successors (t : TransitionTable) (e : Event) : List Event :=
  match t.entries.find? (fun entry => entry.1 == e) with
  | some (_, next) => next.toList
  | none => []

/-- Whether `next` may come directly after `previous`. -/
def allows (t : TransitionTable) (previous next : Event) : Bool :=
  (t.successors previous).contains next

/-- The number of entries. -/
def size (t : TransitionTable) : Nat := t.entries.length

/-- Whether the table has no entry. -/
def isEmpty (t : TransitionTable) : Bool := t.entries.isEmpty

/-- The timer chain of a RISC-V hart. The machine timer may fire again or hand over to the
supervisor timer, which makes an environment call, which returns to the machine timer. -/
def timerChain : TransitionTable :=
  ofList
    [("desc=m_timer", ["desc=m_timer", "desc=s_timer"]),
     ("desc=s_timer", ["desc=supervisor_ecall"]),
     ("desc=supervisor_ecall", ["desc=m_timer"])]

end TransitionTable

end SafeClock
