import SafeClock.Interrupt.Trace

/-!
# What a verdict is about

`Trace.verdict` goes along the events of a trace with the last one in hand and stops at the first
event that may not follow it. This file says the same without a walk, by the positions in the list:

> **the first breach**: a verdict names a pair exactly if the pair is the first that the table does
> not allow (`verdict_eq_violation_iff`), and none exactly if there is no such pair
> (`verdict_eq_correct_iff`).

A table may be any relation: an event that it does not list has no successors, and one may follow
itself. So what comes behind the first breach does not count, and of what comes before the last event
nothing counts but that it was in order (`verdict_append`).
-/

set_option autoImplicit false

namespace SafeClock.Trace

variable {table : TransitionTable} {es xs ys : List Event} {a b c d e : Event} {i j : Nat}

/-! ## Orderly lists, and the first place where one is not -/

/-- Two events that follow each other, the first of them at a position. -/
def Adjacent (es : List Event) (i : Nat) (a b : Event) : Prop :=
  es[i]? = some a ∧ es[i + 1]? = some b

/-- Every event may follow the one before it. -/
def Ordered (table : TransitionTable) (es : List Event) : Prop :=
  ∀ i a b, Adjacent es i a b → table.allows a b = true

/-- A pair at a position that the table does not allow, with none before it. -/
structure FirstBreach (table : TransitionTable) (es : List Event) (i : Nat) (a b : Event) :
    Prop where
  adjacent : Adjacent es i a b
  forbidden : table.allows a b = false
  earlier : ∀ j < i, ∀ c d, Adjacent es j c d → table.allows c d = true

theorem adjacent_zero_iff : Adjacent (c :: d :: es) 0 a b ↔ c = a ∧ d = b := by
  simp [Adjacent]

@[simp] theorem adjacent_succ_iff : Adjacent (e :: es) (i + 1) a b ↔ Adjacent es i a b := by
  simp [Adjacent]

theorem not_adjacent_singleton : ¬Adjacent [e] i a b := by
  simp [Adjacent]

theorem Adjacent.unique (h : Adjacent es i a b) (h' : Adjacent es i c d) : a = c ∧ b = d :=
  ⟨Option.some.inj (h.1.symm.trans h'.1), Option.some.inj (h.2.symm.trans h'.2)⟩

theorem Adjacent.append (h : Adjacent xs i a b) (ys : List Event) : Adjacent (xs ++ ys) i a b := by
  obtain ⟨hi, -⟩ := List.getElem?_eq_some_iff.mp h.1
  obtain ⟨hsucc, -⟩ := List.getElem?_eq_some_iff.mp h.2
  exact ⟨(List.getElem?_append_left hi).trans h.1, (List.getElem?_append_left hsucc).trans h.2⟩

/-- A pair of the longer list that stands before a pair of the shorter one is of the shorter one. -/
theorem Adjacent.of_append (h : Adjacent (xs ++ ys) j c d) (hlt : j < i) (hi : Adjacent xs i a b) :
    Adjacent xs j c d := by
  obtain ⟨hlen, -⟩ := List.getElem?_eq_some_iff.mp hi.2
  exact ⟨(List.getElem?_append_left (by omega)).symm.trans h.1,
    (List.getElem?_append_left (by omega)).symm.trans h.2⟩

theorem ordered_cons_cons_iff :
    Ordered table (a :: b :: es) ↔ table.allows a b = true ∧ Ordered table (b :: es) := by
  constructor
  · intro h
    exact ⟨h 0 a b (adjacent_zero_iff.mpr ⟨rfl, rfl⟩),
      fun i c d hcd => h (i + 1) c d (adjacent_succ_iff.mpr hcd)⟩
  · rintro ⟨hab, hes⟩ i c d hcd
    cases i with
    | zero =>
      obtain ⟨rfl, rfl⟩ := adjacent_zero_iff.mp hcd
      exact hab
    | succ i => exact hes i c d (adjacent_succ_iff.mp hcd)

namespace FirstBreach

/-- A forbidden pair at the start is the first. -/
theorem head (h : table.allows a b = false) : FirstBreach table (a :: b :: es) 0 a b :=
  ⟨adjacent_zero_iff.mpr ⟨rfl, rfl⟩, h, fun _ hj => absurd hj (Nat.not_lt_zero _)⟩

/-- An allowed pair in front moves the first breach one place on. -/
theorem cons (hab : table.allows a b = true) (h : FirstBreach table (b :: es) i c d) :
    FirstBreach table (a :: b :: es) (i + 1) c d := by
  refine ⟨adjacent_succ_iff.mpr h.adjacent, h.forbidden, fun j hj u v huv => ?_⟩
  cases j with
  | zero =>
    obtain ⟨rfl, rfl⟩ := adjacent_zero_iff.mp huv
    exact hab
  | succ j => exact h.earlier j (Nat.lt_of_succ_lt_succ hj) u v (adjacent_succ_iff.mp huv)

theorem not_ordered (h : FirstBreach table es i a b) : ¬Ordered table es := by
  intro ho
  exact absurd (ho i a b h.adjacent) (by simp [h.forbidden])

theorem unique (h : FirstBreach table es i a b) (h' : FirstBreach table es j c d) :
    i = j ∧ a = c ∧ b = d := by
  -- Neither of the two positions can lie before the other.
  have hij : ¬i < j := fun hlt =>
    absurd (h'.earlier i hlt a b h.adjacent) (by simp [h.forbidden])
  have hji : ¬j < i := fun hlt =>
    absurd (h.earlier j hlt c d h'.adjacent) (by simp [h'.forbidden])
  obtain rfl : i = j := by omega
  exact ⟨rfl, h.adjacent.unique h'.adjacent⟩

theorem append (h : FirstBreach table xs i a b) (ys : List Event) :
    FirstBreach table (xs ++ ys) i a b :=
  ⟨h.adjacent.append ys, h.forbidden,
    fun j hj c d hcd => h.earlier j hj c d (hcd.of_append hj h.adjacent)⟩

end FirstBreach

/-! ## The walk -/

/-- The walk ends without a breach, or at the first. -/
theorem verdictAfter_cases (table : TransitionTable) (e : Event) (es : List Event) :
    (verdictAfter table e es = .correct ∧ Ordered table (e :: es)) ∨
    ∃ i a b, verdictAfter table e es = .violation a b ∧ FirstBreach table (e :: es) i a b := by
  induction es generalizing e with
  | nil => exact .inl ⟨rfl, fun _ _ _ h => absurd h not_adjacent_singleton⟩
  | cons next rest ih =>
    rw [verdictAfter]
    cases hallows : table.allows e next with
    | false => exact .inr ⟨0, e, next, rfl, .head hallows⟩
    | true =>
      rcases ih next with ⟨hcorrect, hordered⟩ | ⟨i, a, b, hviolation, hbreach⟩
      · exact .inl ⟨hcorrect, ordered_cons_cons_iff.mpr ⟨hallows, hordered⟩⟩
      · exact .inr ⟨i + 1, a, b, hviolation, hbreach.cons hallows⟩

theorem verdict_cases (table : TransitionTable) (es : List Event) :
    (verdict table es = .correct ∧ Ordered table es) ∨
    ∃ i a b, verdict table es = .violation a b ∧ FirstBreach table es i a b := by
  cases es with
  | nil => exact .inl ⟨rfl, fun _ _ _ h => absurd h (by simp [Adjacent])⟩
  | cons e es => exact verdictAfter_cases table e es

/-- **A verdict names the first breach.** -/
theorem verdict_eq_violation_iff :
    verdict table es = .violation a b ↔ ∃ i, FirstBreach table es i a b := by
  rcases verdict_cases table es with ⟨hcorrect, hordered⟩ | ⟨i, c, d, hviolation, hbreach⟩
  · rw [hcorrect]
    exact ⟨nofun, fun ⟨i, h⟩ => absurd hordered h.not_ordered⟩
  · rw [hviolation]
    constructor
    · rintro ⟨⟩
      exact ⟨i, hbreach⟩
    · rintro ⟨j, h⟩
      obtain ⟨-, rfl, rfl⟩ := hbreach.unique h
      rfl

/-- **A verdict names no pair exactly if all is in order.** -/
theorem verdict_eq_correct_iff : verdict table es = .correct ↔ Ordered table es := by
  rcases verdict_cases table es with ⟨hcorrect, hordered⟩ | ⟨i, c, d, hviolation, hbreach⟩
  · exact iff_of_true hcorrect hordered
  · rw [hviolation]
    exact iff_of_false nofun hbreach.not_ordered

/-! ## Longer lists -/

/-- A walk that met no breach goes on from the last event. -/
theorem verdictAfter_append (h : verdictAfter table e xs = .correct)
    (hlast : (e :: xs).getLast? = some a) :
    verdictAfter table e (xs ++ ys) = verdictAfter table a ys := by
  induction xs generalizing e with
  | nil =>
    obtain rfl : e = a := by simpa using hlast
    rfl
  | cons next rest ih =>
    rw [verdictAfter] at h
    rw [List.cons_append, verdictAfter]
    cases hallows : table.allows e next with
    | false =>
      rw [hallows] at h
      cases h
    | true =>
      rw [hallows] at h
      exact ih h (by simpa using hlast)

theorem verdict_append (h : verdict table xs = .correct) (hlast : xs.getLast? = some a) :
    verdict table (xs ++ ys) = verdict table (a :: ys) := by
  cases xs with
  | nil => cases hlast
  | cons e xs => exact verdictAfter_append h hlast

/-- **A verdict is about the first breach.** It names a pair exactly if some position holds the pair,
the table does not allow it, and it allows every pair before. Else every pair is allowed. So events
behind a breach change nothing, and events behind an orderly list are judged by its last event. -/
theorem verdict_of_positions (table : TransitionTable) (es : List Event) :
    (∀ a b, verdict table es = .violation a b ↔
      ∃ i, es[i]? = some a ∧ es[i + 1]? = some b ∧ table.allows a b = false ∧
        ∀ j < i, ∀ c d, es[j]? = some c → es[j + 1]? = some d → table.allows c d = true) ∧
    (verdict table es = .correct ↔
      ∀ i a b, es[i]? = some a → es[i + 1]? = some b → table.allows a b = true) ∧
    (∀ ys a b, verdict table es = .violation a b →
      verdict table (es ++ ys) = .violation a b) ∧
    (∀ ys e, verdict table es = .correct → es.getLast? = some e →
      verdict table (es ++ ys) = verdict table (e :: ys)) := by
  refine ⟨fun a b => ?_, ?_, fun ys a b h => ?_, fun ys e h hlast => verdict_append h hlast⟩
  · rw [verdict_eq_violation_iff]
    constructor
    · rintro ⟨i, ⟨ha, hb⟩, hforbidden, hearlier⟩
      exact ⟨i, ha, hb, hforbidden, fun j hj c d hc hd => hearlier j hj c d ⟨hc, hd⟩⟩
    · rintro ⟨i, ha, hb, hforbidden, hearlier⟩
      exact ⟨i, ⟨ha, hb⟩, hforbidden, fun j hj c d hcd => hearlier j hj c d hcd.1 hcd.2⟩
  · rw [verdict_eq_correct_iff]
    exact ⟨fun h i a b ha hb => h i a b ⟨ha, hb⟩, fun h i a b hab => h i a b hab.1 hab.2⟩
  · obtain ⟨i, hbreach⟩ := verdict_eq_violation_iff.mp h
    exact verdict_eq_violation_iff.mpr ⟨i, hbreach.append ys⟩

/-- The supervisor timer repeats itself, which the timer chain does not allow, before an event comes
that it does not know. An orderly beginning is judged on from its last event. -/
theorem verdict_of_positions_at_second_breach :
    let m := "desc=m_timer"
    let s := "desc=s_timer"
    verdict .timerChain [m, m, s, s] = .violation s s ∧
      verdict .timerChain [m, m, s, s, "desc=external", m] = .violation s s ∧
      verdict .timerChain [m, m, s] = .correct ∧
      verdict .timerChain [m, m, s, "desc=external"] =
        verdict .timerChain [s, "desc=external"] := by
  intro m s
  obtain ⟨hviolation, -, hbehind, -⟩ := verdict_of_positions .timerChain [m, m, s, s]
  obtain ⟨-, hcorrect, -, hon⟩ := verdict_of_positions .timerChain [m, m, s]
  have hs : verdict .timerChain [m, m, s, s] = .violation s s := by decide
  have hm : verdict .timerChain [m, m, s] = .correct := by decide
  exact ⟨hs, hbehind ["desc=external", m] s s hs, hm, hon ["desc=external"] s hm rfl⟩

end SafeClock.Trace
