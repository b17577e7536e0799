import Mathlib.Order.Bounds.Defs
import SafeClock.Proofs.Search.Checked

/-!
# How far a search can count

Every search ends, and the bounds only close in, as far as numbers go (`halts_initial`,
`State.Enclosed.narrows`). The program counts its measurements in a word, and a band may be so wide
that the walk through it outlasts the word. This file says both laws of `advance?` and `drive?`,
where the count has an end:

> **the search ends, or its count does**: within the bound on its results a search has ended, or it
> has counted `2 ^ 32 - 1` of them and takes in no other.

For the second it takes a bound of `2 ^ 32` results at least. The band from 0 Hz to `2 ^ 33` Hz with
a step of 1 Hz has such a bound, and a platform that passes once, at the ceiling, and never again
uses up the count (`drive_outlasts_count`). A session is given a number of measurements that fits
the word, and ends before that.
-/

set_option autoImplicit false

namespace SafeClock.Search

variable {p : Parameters} {measure : Nat → State → Probe} {fuel n i k : Nat} {s s' : State}
  {q : Probe} {qs : List Probe} {ts : List Transition}

/-! ## A driven search -/

/-- A search that has not ended makes a transition for each result, and goes on after all of
them. -/
theorem drive_of_not_halts (h : ¬Halts p measure fuel i s) :
    (State.drive p measure fuel i s).length = fuel ∧
      ∀ t ∈ State.drive p measure fuel i s, t.isTerminal = false := by
  induction fuel generalizing i s with
  | zero => exact ⟨rfl, fun t ht => absurd ht List.not_mem_nil⟩
  | succ fuel ih =>
    rcases drive_cases p measure i s with ⟨s', ha, hd⟩ | ⟨t, ha, ht, -⟩
    · obtain ⟨hlength, hgoes⟩ := ih fun hnext => h (halts_of_next ha hnext)
      rw [hd]
      exact ⟨congrArg (· + 1) hlength, List.forall_mem_cons.mpr ⟨rfl, hgoes⟩⟩
    · exact absurd (halts_of_terminal (ha ▸ ht)) h

/-- A search from the start has a value as long as its transitions can be counted. -/
theorem drive?_initial_eq (hp : p.Valid) (hhigh : p.band.high < frequencyLimit)
    (hm : ∀ i s, (measure i s).frequency = s.current) (fuel : Nat) :
    State.drive? p measure fuel 0 (State.initial p) =
      if (State.drive p measure fuel 0 (State.initial p)).length < countLimit then
        some (State.drive p measure fuel 0 (State.initial p))
      else none := by
  have hzero : (State.initial p).iteration = 0 := rfl
  have hcount : (State.initial p).iteration < countLimit := hzero ▸ (by decide : 0 < countLimit)
  rw [drive?_eq hhigh hm (State.enclosed_initial hp) hcount, hzero, Nat.zero_add]

/-- **The search ends, or its count does.** Whatever is measured, a driven search has ended within
the bound, and no amount of fuel makes it longer or ends it elsewhere; or the bound does not fit the
count, the search goes on after each of the results that can be counted, and the next one has no
value. -/
theorem drive_ends_within (hp : p.Valid) (hhigh : p.band.high < frequencyLimit)
    (hk : IsLeast {j | p.band.high - p.band.low ≤ p.step * 2 ^ j} k)
    (measure : Nat → State → Probe) (hm : ∀ i s, (measure i s).frequency = s.current) :
    (∃ ts last, ts.length ≤ k + (p.band.high - p.band.low) / p.step + 2 ∧
      ts.getLast? = some last ∧ last.isTerminal = true ∧ last.state.iteration = ts.length ∧
      ∀ fuel, ts.length ≤ fuel →
        State.drive? p measure fuel 0 (State.initial p) = some ts) ∨
    (countLimit ≤ k + (p.band.high - p.band.low) / p.step + 2 ∧
      (∃ ts, ts.length + 1 = countLimit ∧ (∀ t ∈ ts, t.isTerminal = false) ∧
        State.drive? p measure ts.length 0 (State.initial p) = some ts) ∧
      ∀ fuel, countLimit ≤ fuel →
        State.drive? p measure fuel 0 (State.initial p) = none) := by
  obtain ⟨n, last, hn, hterm, hcount, hall⟩ :=
    (halts_initial measure hp hk.1 (Nat.le_refl _)).settles
  have hvalue := drive?_initial_eq hp hhigh hm
  have hpos : 0 < countLimit := by decide
  obtain ⟨hlength, hlast⟩ := hall n (Nat.le_refl _)
  by_cases hroom : n < countLimit
  · refine Or.inl ⟨State.drive p measure n 0 (State.initial p), last, hlength.trans_le hn, hlast,
      hterm, by rw [hcount, hlength]; exact Nat.zero_add n, fun fuel hfuel => ?_⟩
    rw [hvalue, drive_eq_of_length_le hlast hterm hfuel, hlength, if_pos hroom]
  · have hgoes : ∀ fuel, fuel < n → ¬Halts p measure fuel 0 (State.initial p) := by
      intro fuel hfuel h
      obtain ⟨m, _, hm, _, _, hall'⟩ := h.settles
      have hmn : m = n := (hall' n (by omega)).1.symm.trans hlength
      omega
    refine Or.inr ⟨by omega, ?_, fun fuel hfuel => ?_⟩
    · obtain ⟨hfull, hnone⟩ := drive_of_not_halts (hgoes (countLimit - 1) (by omega))
      refine ⟨State.drive p measure (countLimit - 1) 0 (State.initial p), ?_, hnone, ?_⟩
      · rw [hfull]
        rfl
      · rw [hfull, hvalue, hfull, if_pos (by decide)]
    · -- With fuel for more results than can be counted, more of them are made.
      have hmany : countLimit ≤ (State.drive p measure fuel 0 (State.initial p)).length := by
        by_cases hend : fuel < n
        · rw [(drive_of_not_halts (hgoes fuel hend)).1]
          exact hfuel
        · rw [(hall fuel (by omega)).1]
          omega
      rw [hvalue, if_neg (Nat.not_lt_of_le hmany)]

/-- A band of 5 Hz with a step of 2 Hz is down to a step after two halvings, and 6 results end every
search in it. One that fails at 5 Hz, passes at 2 Hz and 3 Hz and fails from then on takes all 6. -/
theorem drive_ends_within_six :
    let p : Parameters := ⟨⟨0, 5⟩, 2, 3⟩
    let measure : Nat → State → Probe := fun i s =>
      ⟨s.current, if i = 1 ∨ i = 2 then 0 else 3, 3⟩
    p.Valid ∧ p.band.high < frequencyLimit ∧
      IsLeast {j | p.band.high - p.band.low ≤ p.step * 2 ^ j} 2 ∧
      (∀ i s, (measure i s).frequency = s.current) ∧
      ∃ ts last, ts.length = 6 ∧ ts.getLast? = some last ∧ last.isTerminal = true ∧
        last.state.iteration = 6 ∧ ∀ fuel, 6 ≤ fuel →
          State.drive? p measure fuel 0 (State.initial p) = some ts := by
  intro p measure
  have hp : p.Valid := by decide
  have hhigh : p.band.high < frequencyLimit := by decide
  have hk : IsLeast {j | p.band.high - p.band.low ≤ p.step * 2 ^ j} 2 := by
    refine ⟨show 5 ≤ 2 * 2 ^ 2 by decide, fun j hj => ?_⟩
    have hj : 5 ≤ 2 * 2 ^ j := hj
    match j with
    | 0 => exact absurd hj (by decide)
    | 1 => exact absurd hj (by decide)
    | j + 2 => exact Nat.le_add_left 2 j
  have hm : ∀ i s, (measure i s).frequency = s.current := fun _ _ => rfl
  have hsix : (State.drive? p measure 6 0 (State.initial p)).map List.length = some 6 := by decide
  refine ⟨hp, hhigh, hk, hm, ?_⟩
  rcases drive_ends_within hp hhigh hk measure hm with
    ⟨ts, last, hn, hlast, hterm, hcount, hall⟩ | ⟨hbound, -⟩
  · have hn : ts.length ≤ 6 := by simpa [p] using hn
    rw [hall 6 hn, Option.map_some, Option.some.injEq] at hsix
    rw [hsix] at hcount hall
    exact ⟨ts, last, hsix, hlast, hterm, hcount, hall⟩
  · exact absurd hbound (by decide)

/-! ## A walk that outlasts the count -/

namespace State

/-- Where `n` results that fail in every trial lead, once the bounds are close. -/
def lowered (p : Parameters) (s : State) (n : Nat) : State where
  current := s.current - n * p.step
  lower := max (s.current - n * p.step - p.step) p.band.low
  upper := s.current - n * p.step
  highestUnsafe := s.highestUnsafe
  iteration := s.iteration + n

theorem lowered_lowered (m n : Nat) : (s.lowered p m).lowered p n = s.lowered p (m + n) := by
  simp only [lowered, Nat.add_mul, Nat.sub_sub, Nat.add_assoc]

/-- A walk is lowered by each failure, if a whole step is left. -/
theorem advance_eq_lowered (hgap : s.upper - s.lower ≤ p.step)
    (hq : q.isClean = false ∧ q.isIntermittent = false)
    (hfit : p.step + p.band.low ≤ s.current) : s.advance p q = .proceed (s.lowered p 1) := by
  rw [(Move.descend hq.1 hgap hfit).advance_eq]
  simp [lowered, noted, hq.2]

end State

/-- **A walk takes every step there is**: as long as nothing but failures is measured, the search
goes on, one step lower for each of them. -/
theorem getLast?_drive_walk (hgap : s.upper - s.lower ≤ p.step)
    (hfail : ∀ j u, i ≤ j → (measure j u).isClean = false ∧ (measure j u).isIntermittent = false)
    (hfit : (n + 1) * p.step + p.band.low ≤ s.current) :
    (State.drive p measure (n + 1) i s).getLast? = some (.proceed (s.lowered p (n + 1))) := by
  induction n generalizing i s with
  | zero =>
    have ha := State.advance_eq_lowered hgap (hfail i s (Nat.le_refl i)) (by omega)
    rw [State.drive, ha]
    rfl
  | succ n ih =>
    rw [Nat.succ_mul] at hfit
    have ha := State.advance_eq_lowered hgap (hfail i s (Nat.le_refl i)) (by omega)
    have hrest : (n + 1) * p.step + p.band.low ≤ (s.lowered p 1).current := by
      show (n + 1) * p.step + p.band.low ≤ s.current - 1 * p.step
      omega
    have hnext := ih (close_next hgap ha) (fun j u hj => hfail j u (Nat.le_of_succ_le hj)) hrest
    rw [State.drive, ha]
    show (Transition.proceed _ :: State.drive p measure (n + 1) (i + 1) _).getLast? = _
    rw [List.getLast?_cons, hnext, State.lowered_lowered, Nat.add_comm 1]
    rfl

/-- A platform that passes at the first measurement and fails in every trial from then on. -/
def passesOnce (i : Nat) (s : State) : Probe := ⟨s.current, if i = 0 then 0 else 3, 3⟩

/-- In a band of `2 ^ 33` Hz with a step of 1 Hz the walk down from a ceiling that passed once has
more results than can be counted before it. -/
theorem getLast?_drive_passesOnce {n : Nat} (hn : n + 1 ≤ 8589934592) :
    let p : Parameters := ⟨⟨0, 8589934592⟩, 1, 3⟩
    let s : State := ⟨8589934592, 8589934592, 8589934592, 8589934592, 1⟩
    (State.drive p passesOnce (n + 2) 0 (State.initial p)).getLast? =
      some (.proceed (s.lowered p (n + 1))) := by
  intro p s
  have hfirst : (State.initial p).advance p (passesOnce 0 (State.initial p)) = .proceed s := by
    decide
  have hfail : ∀ j u, 1 ≤ j →
      (passesOnce j u).isClean = false ∧ (passesOnce j u).isIntermittent = false := by
    intro j u hj
    have hj : j ≠ 0 := Nat.ne_of_gt hj
    simp [passesOnce, hj, Probe.isClean, Probe.isIntermittent]
  have hwalk := getLast?_drive_walk (p := p) (i := 1) (show s.upper - s.lower ≤ p.step by decide)
    hfail (show (n + 1) * 1 + 0 ≤ 8589934592 by omega)
  rw [State.drive, hfirst]
  show (Transition.proceed s :: State.drive p passesOnce (n + 1) 1 s).getLast? = _
  rw [List.getLast?_cons, hwalk]
  rfl

/-- **No end that can be counted.** The bound on the results of this search is `2 ^ 33 + 35`, and
none of them ends it, for the count has no room for more than half of these. -/
theorem drive_outlasts_count :
    let p : Parameters := ⟨⟨0, 8589934592⟩, 1, 3⟩
    p.Valid ∧ p.band.high < frequencyLimit ∧
      IsLeast {j | p.band.high - p.band.low ≤ p.step * 2 ^ j} 33 ∧
      (∀ i s, (passesOnce i s).frequency = s.current) ∧
      ∀ fuel ts last, State.drive? p passesOnce fuel 0 (State.initial p) = some ts →
        ts.getLast? = some last → last.isTerminal = false := by
  intro p
  have hp : p.Valid := by decide
  have hhigh : p.band.high < frequencyLimit := by decide
  have hm : ∀ i s, (passesOnce i s).frequency = s.current := fun _ _ => rfl
  have hk : IsLeast {j | p.band.high - p.band.low ≤ p.step * 2 ^ j} 33 := by
    refine ⟨show 8589934592 ≤ 1 * 2 ^ 33 by decide, fun j hj => ?_⟩
    have hj : 2 ^ 33 ≤ 2 ^ j := by simpa [p] using hj
    exact (Nat.pow_le_pow_iff_right (by decide)).mp hj
  refine ⟨hp, hhigh, hk, hm, fun fuel ts last hts hlast => ?_⟩
  rw [drive?_initial_eq hp hhigh hm, Option.ite_none_right_eq_some, Option.some.injEq] at hts
  obtain ⟨hroom, rfl⟩ := hts
  refine Bool.eq_false_iff.mpr fun hterm => ?_
  -- An end that can be counted would still be the end with fuel for `2 ^ 32` results.
  have hlate := drive_eq_of_length_le (n := countLimit) hlast hterm (Nat.le_of_lt hroom)
  have hgoes : (State.drive p passesOnce countLimit 0 (State.initial p)).getLast? =
      some (.proceed _) := getLast?_drive_passesOnce (n := 4294967294) (by decide)
  rw [hlate, hlast, Option.some.injEq] at hgoes
  rw [hgoes] at hterm
  exact absurd hterm (by simp [Transition.isTerminal])

/-! ## The states of a search -/

/-- The states that a search goes on to, with the results it took in, each in words. -/
inductive Reached (p : Parameters) : List Probe → State → Prop
  | initial : Reached p [] (State.initial p)
  | step {qs : List Probe} {s s' : State} {q : Probe} (h : Reached p qs s)
      (ha : s.advance? p q = some (.proceed s')) : Reached p (qs ++ [q]) s'

theorem Reached.leg (h : Reached p qs s) : Leg p (State.Faultless p) (State.initial p) qs s := by
  induction h with
  | initial => exact .rest
  | step _ ha ih =>
    obtain ⟨hq, ha⟩ := State.advance?_eq_some_iff.mp ha
    exact ih.concat hq ha

theorem Reached.iteration_eq (h : Reached p qs s) : s.iteration = qs.length :=
  h.leg.iteration_eq.trans (Nat.zero_add _)

theorem Reached.iteration_lt (h : Reached p qs s) : s.iteration < countLimit := by
  cases h with
  | initial => exact (by decide : 0 < countLimit)
  | step _ ha =>
    obtain ⟨hq, ha⟩ := State.advance?_eq_some_iff.mp ha
    have hcount := (State.move_of_advance ha).iteration_eq
    exact hcount ▸ hq.iteration_lt

/-- What a driven search goes on to is reached. -/
theorem reached_of_drive? (hs : Reached p qs s)
    (h : State.drive? p measure fuel i s = some ts) (hlast : ts.getLast? = some (.proceed s')) :
    ∃ rs, Reached p rs s' := by
  induction fuel generalizing i s qs ts with
  | zero =>
    obtain rfl : [] = ts := Option.some.inj h
    exact absurd hlast (by simp)
  | succ fuel ih =>
    obtain ⟨t, ha, h⟩ := Option.bind_eq_some_iff.mp h
    cases t with
    | proceed u =>
      obtain ⟨us, hus, h⟩ := Option.bind_eq_some_iff.mp h
      obtain rfl : .proceed u :: us = ts := Option.some.inj h
      rw [List.getLast?_cons, Option.some.injEq] at hlast
      cases hend : us.getLast? with
      | none =>
        -- Nothing comes after this one, so it is the state that was asked for.
        rw [hend] at hlast
        obtain rfl : u = s' := Transition.proceed.inj hlast
        exact ⟨_, hs.step ha⟩
      | some t =>
        rw [hend, Option.getD_some] at hlast
        exact ih (hs.step ha) hus (hlast ▸ hend)
    | converged u | exhausted _ u =>
      obtain rfl : [_] = ts := Option.some.inj h
      exact absurd hlast (by simp)

/-- **The bounds over a whole search.** A state that a search goes on to is enclosed and has counted
every result, and the next one has no value exactly if the count has no room for it. If it has a
value, it narrows, the state it goes on to is enclosed again, and a state it ends in gives an answer
in the band. What is counted never exceeds the bound for the whole search. -/
theorem bounds_of_search (hp : p.Valid) (hhigh : p.band.high < frequencyLimit)
    (h : Reached p qs s) :
    s.Enclosed p ∧ s.iteration = qs.length ∧
      (∀ q, q.frequency = s.current →
        (s.advance? p q = none ↔ s.iteration + 1 = countLimit)) ∧
      ∀ q t, s.advance? p q = some t →
        s.Narrows p t.state ∧ (∀ s', t = .proceed s' → s'.Enclosed p) ∧
        (t.isTerminal = true →
          p.band.low ≤ t.state.current ∧ t.state.current ≤ p.band.high ∧
            t.state.current ≤ t.state.highestUnsafe) ∧
        ∀ k, p.band.high - p.band.low ≤ p.step * 2 ^ k →
          t.state.iteration ≤ k + (p.band.high - p.band.low) / p.step + 2 := by
  have hs := h.leg.enclosed (State.enclosed_initial hp)
  have hroom := h.iteration_lt
  refine ⟨hs, h.iteration_eq, fun q hq => ?_, fun q t ha => ?_⟩
  · rw [hs.advance?_eq hhigh hq, ite_eq_right_iff, imp_iff_not (by simp)]
    omega
  · have ha := (State.advance?_eq_some_iff.mp ha).2
    have hnarrows := hs.narrows ha
    refine ⟨hnarrows, ?_, hs.final_mem ha, fun k hk => ?_⟩
    · rintro s' rfl
      exact hs.next ha
    · rw [hnarrows.iteration_eq, h.iteration_eq]
      exact h.leg.length_lt hp hk

/-- The second step of a search from 200 Hz down: 150 Hz fails in one trial of three, and becomes
the upper bound and the frequency that is remembered. -/
theorem bounds_of_search_at_150 :
    let p : Parameters := ⟨⟨100, 200⟩, 20, 3⟩
    let s : State := ⟨150, 100, 200, 200, 1⟩
    let s' : State := ⟨125, 100, 150, 150, 2⟩
    p.Valid ∧ p.band.high < frequencyLimit ∧ Reached p [⟨200, 3, 3⟩] s ∧
      s.advance? p ⟨150, 1, 3⟩ = some (.proceed s') ∧ s.Narrows p s' ∧ s'.Enclosed p := by
  intro p s s'
  have hp : p.Valid := by decide
  have hhigh : p.band.high < frequencyLimit := by decide
  have hs : Reached p [⟨200, 3, 3⟩] s :=
    .step .initial (show (State.initial p).advance? p ⟨200, 3, 3⟩ = some (.proceed s) by decide)
  have ha : s.advance? p ⟨150, 1, 3⟩ = some (.proceed s') := by decide
  obtain ⟨-, -, -, hall⟩ := bounds_of_search hp hhigh hs
  obtain ⟨hnarrows, hnext, -⟩ := hall _ _ ha
  exact ⟨hp, hhigh, hs, ha, hnarrows, hnext s' rfl⟩

/-- **The last state that can count**: a search goes on to it, and no result takes it further, though
the walk has more than four gigahertz left below its candidate. -/
theorem count_runs_over :
    let p : Parameters := ⟨⟨0, 8589934592⟩, 1, 3⟩
    let s : State := ⟨4294967298, 4294967297, 4294967298, 8589934592, 4294967295⟩
    p.Valid ∧ p.band.high < frequencyLimit ∧ (∃ qs, Reached p qs s) ∧
      ∀ q, s.advance? p q = none := by
  intro p s
  have hp : p.Valid := by decide
  have hhigh : p.band.high < frequencyLimit := by decide
  have hlast : (State.drive p passesOnce 4294967295 0 (State.initial p)).getLast? =
      some (.proceed s) := getLast?_drive_passesOnce (n := 4294967293) (by decide)
  have hroom : (State.drive p passesOnce 4294967295 0 (State.initial p)).length < countLimit :=
    Nat.lt_of_le_of_lt length_drive_le (by decide)
  have hm : ∀ i s, (passesOnce i s).frequency = s.current := fun _ _ => rfl
  have hvalue := drive?_initial_eq hp hhigh hm 4294967295
  rw [if_pos hroom] at hvalue
  refine ⟨hp, hhigh, reached_of_drive? .initial hvalue hlast, fun q => ?_⟩
  refine Option.eq_none_iff_forall_ne_some.mpr fun t ht => ?_
  have hcount : 4294967295 + 1 < countLimit := (State.advance?_eq_some_iff.mp ht).1.iteration_lt
  exact absurd hcount (by decide)

end SafeClock.Search
