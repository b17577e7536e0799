import SafeClock.Proofs.Grid
import SafeClock.Proofs.Search.Bounds

/-!
# A search moves with its band

A search compares frequencies with each other and with the ends of its band, and moves by halves of
distances and by steps. Nothing in it refers to zero, not even the walk down, which would have to
stop there. So a search in a band that lies `d` Hz higher is the same search `d` Hz higher:

> **the search is translated with its band**: what `shift` does to a state commutes with a step
> (`advance_shift`), and hence with a whole search (`drive_shift`).

Two subtractions need a second look: the walk asks whether a whole step fits above the floor, which
it must not read off a difference that was cut at zero, and it sets a lower bound two steps down,
which may be cut, since the floor takes its place. At the other end of the range nothing is added
that could leave the words, because no half-way point lies above its upper bound (`State.Fits`).
-/

set_option autoImplicit false

namespace SafeClock

variable {d : Nat} {p : Parameters}

/-! ## Moving up -/

/-- The same search in a band that lies higher. -/
def Parameters.shift (d : Nat) (p : Parameters) : Parameters where
  band := ⟨p.band.low + d, p.band.high + d⟩
  step := p.step
  trials := p.trials

theorem Parameters.Valid.shift (h : p.Valid) : (p.shift d).Valid :=
  ⟨Nat.add_le_add_right h.1 d, h.2⟩

/-- The grid starts at the floor of the band, wherever that is. -/
theorem Parameters.snap_shift (d : Nat) (p : Parameters) (hz : Nat) :
    (p.shift d).snap (hz + d) = p.snap hz + d := by
  simp only [Parameters.snap, Parameters.shift, Nat.add_sub_add_right]
  split <;> exact Nat.add_right_comm _ _ _

/-- The same result at a higher frequency. -/
def Probe.shift (d : Nat) (q : Probe) : Probe := { q with frequency := q.frequency + d }

namespace Search

/-- The same state higher up; the measurements behind it are as many. -/
def State.shift (d : Nat) (s : State) : State where
  current := s.current + d
  lower := s.lower + d
  upper := s.upper + d
  highestUnsafe := s.highestUnsafe + d
  iteration := s.iteration

/-- The same way out to a higher state. -/
def Transition.shift (d : Nat) : Transition → Transition
  | .proceed s => .proceed (s.shift d)
  | .converged s => .converged (s.shift d)
  | .exhausted boundary s => .exhausted boundary (s.shift d)

@[simp]
theorem Transition.state_shift (d : Nat) (t : Transition) :
    (t.shift d).state = t.state.shift d := by
  cases t <;> rfl

/-- The ceiling has moved as far as the answer, so the word for the end is the same. -/
theorem Termination.ofTransition?_shift (d : Nat) (p : Parameters) (t : Transition) :
    ofTransition? (p.shift d) (t.shift d) = ofTransition? p t := by
  cases t with
  | proceed s => rfl
  | converged s =>
    simp only [ofTransition?, Transition.shift, State.shift, Parameters.shift,
      Nat.add_le_add_iff_right]
  | exhausted boundary s => cases boundary <;> rfl

variable {s : State} {q : Probe} {t : Transition}

theorem State.noted_shift (d : Nat) (s : State) (q : Probe) :
    (s.shift d).noted (q.shift d) = s.noted q + d :=
  (apply_ite (· + d) (q.isIntermittent = true) s.current s.highestUnsafe).symm

/-! ## A step commutes with moving up -/

/-- Every way out is the same way out higher up. -/
theorem Move.shift (d : Nat) (h : Move p s q t) :
    Move (p.shift d) (s.shift d) (q.shift d) (t.shift d) := by
  have hdist : s.upper + d - (s.lower + d) = s.upper - s.lower := Nat.add_sub_add_right _ _ _
  have hup : s.current + d + (s.upper + d - (s.current + d)) / 2 =
      s.current + (s.upper - s.current) / 2 + d := by omega
  have hdown : s.lower + d + (s.current + d - (s.lower + d)) / 2 =
      s.lower + (s.current - s.lower) / 2 + d := by omega
  cases h with
  | raise hq hgap hmid =>
    have hmid' : s.current + d + (s.upper + d - (s.current + d)) / 2 ≤ p.band.high + d :=
      hup ▸ Nat.add_le_add_right hmid d
    have hm := Move.raise (p := p.shift d) (s := s.shift d) (q := q.shift d) hq
      (hdist.symm ▸ hgap) hmid'
    simpa only [Transition.shift, State.shift, hup] using hm
  | ceiling hq hgap hmid =>
    have hmid' : p.band.high + d < s.current + d + (s.upper + d - (s.current + d)) / 2 :=
      hup ▸ Nat.add_lt_add_right hmid d
    exact .ceiling hq (hdist.symm ▸ hgap) hmid'
  | settle hq hgap => exact .settle hq (hdist.symm ▸ hgap)
  | sink hq hgap =>
    have hm := Move.sink (p := p.shift d) (s := s.shift d) (q := q.shift d) hq
      (hdist.symm ▸ hgap)
    rw [State.noted_shift] at hm
    simpa only [Transition.shift, State.shift, hdown] using hm
  | descend hq hgap hfit =>
    have hfit' : p.step + (p.band.low + d) ≤ s.current + d := by omega
    have hstep : s.current + d - p.step = s.current - p.step + d := by omega
    have hlower : max (s.current - p.step + d - p.step) (p.band.low + d) =
        max (s.current - p.step - p.step) p.band.low + d := by omega
    have hm := Move.descend (p := p.shift d) (s := s.shift d) (q := q.shift d) hq
      (hdist.symm ▸ hgap) hfit'
    rw [State.noted_shift] at hm
    simpa only [Transition.shift, State.shift, Parameters.shift, hstep, hlower] using hm
  | floor hq hgap hfit =>
    have hfit' : s.current + d < p.step + (p.band.low + d) := by omega
    have hm := Move.floor (p := p.shift d) (s := s.shift d) (q := q.shift d) hq
      (hdist.symm ▸ hgap) hfit'
    rw [State.noted_shift] at hm
    exact hm

/-- **Moving up commutes with a step.** -/
theorem advance_shift (d : Nat) (p : Parameters) (s : State) (q : Probe) :
    (s.shift d).advance (p.shift d) (q.shift d) = (s.advance p q).shift d :=
  ((s.move p q).shift d).advance_eq

/-! ## And so does a search -/

variable {fuel i : Nat}

/-- Results whose numbers of failed trials are given beforehand, whatever is measured. -/
def tally (p : Parameters) (errors : Nat → Nat) (i : Nat) (s : State) : Probe :=
  ⟨s.current, errors i, p.trials⟩

/-- A search that is driven by the same numbers goes the same way higher up, from every state. -/
theorem drive_shift (d : Nat) (p : Parameters) (errors : Nat → Nat) (s : State) :
    State.drive (p.shift d) (tally (p.shift d) errors) fuel i (s.shift d) =
      (State.drive p (tally p errors) fuel i s).map (Transition.shift d) := by
  induction fuel generalizing i s with
  | zero => rfl
  | succ fuel ih =>
    have ha : (s.shift d).advance (p.shift d) (tally (p.shift d) errors i (s.shift d)) =
        (s.advance p (tally p errors i s)).shift d := advance_shift d p s (tally p errors i s)
    rw [State.drive, State.drive, ha]
    cases s.advance p (tally p errors i s) with
    | proceed s' =>
      rw [List.map_cons, ← ih]
      rfl
    | converged u => rfl
    | exhausted boundary u => rfl

/-- **A search is translated with its band.** In a band that lies higher and still consists of words,
the same numbers of failed trials lead through the same transitions, each of them higher by as much;
the search ends at the same step, in the same way, and with a recommendation that is higher by as
much. No frequency in it leaves the words, and no difference of its bounds and candidates is negative.
-/
theorem search_shift (hp : p.Valid) (hd : p.band.high + d < frequencyLimit) (errors : Nat → Nat) :
    (∀ fuel, State.drive (p.shift d) (tally (p.shift d) errors) fuel 0 (State.initial (p.shift d)) =
      (State.drive p (tally p errors) fuel 0 (State.initial p)).map (Transition.shift d)) ∧
    (∃ n last, last.isTerminal = true ∧
      (∀ fuel, n ≤ fuel →
        (State.drive p (tally p errors) fuel 0 (State.initial p)).getLast? = some last ∧
        (State.drive (p.shift d) (tally (p.shift d) errors) fuel 0
          (State.initial (p.shift d))).getLast? = some (last.shift d)) ∧
      Termination.ofTransition? (p.shift d) (last.shift d) = Termination.ofTransition? p last ∧
      (p.shift d).snap (last.shift d).state.current = p.snap last.state.current + d) ∧
    ∀ fuel, ∀ t ∈ State.drive (p.shift d) (tally (p.shift d) errors) fuel 0
      (State.initial (p.shift d)),
      t.state.Fits ∧ ∀ s', t = .proceed s' → s'.Enclosed (p.shift d) := by
  have hmap : ∀ fuel, State.drive (p.shift d) (tally (p.shift d) errors) fuel 0
      (State.initial (p.shift d)) =
      (State.drive p (tally p errors) fuel 0 (State.initial p)).map (Transition.shift d) :=
    fun fuel => drive_shift d p errors (State.initial p)
  refine ⟨hmap, ?_, fun fuel t ht => ?_⟩
  · obtain ⟨_, hhalts⟩ := exists_halts hp (tally p errors)
    obtain ⟨n, last, _, hterm, _, hend⟩ := hhalts.settles
    refine ⟨n, last, hterm, fun fuel hn => ⟨(hend fuel hn).2, ?_⟩, ?_, ?_⟩
    · rw [hmap, List.getLast?_map, (hend fuel hn).2]
      rfl
    · exact Termination.ofTransition?_shift d p last
    · rw [Transition.state_shift]
      exact Parameters.snap_shift d p last.state.current
  · obtain ⟨qs, u, q, hl, _, ha⟩ := leg_of_mem_drive (R := fun _ _ => True)
      (fun _ _ => trivial) ht
    have hu := hl.enclosed (State.enclosed_initial hp.shift)
    refine ⟨hu.fits_next hd ha, ?_⟩
    rintro s' rfl
    exact hu.next ha

/-- The highest band of a thousand: a platform that is safe up to 500 Hz above its floor is searched
in the ten steps of a band at zero, and the search converges 507 Hz below the last word. -/
theorem search_shift_to_last_word :
    let p : Parameters := ⟨⟨0, 1000⟩, 10, 3⟩
    let d : Nat := 18446744073709550615
    let errors : Nat → Nat := fun i => if i = 1 ∨ i = 9 then 0 else 3
    p.Valid ∧ p.band.high + d < frequencyLimit ∧
      (State.drive p (tally p errors) 10 0 (State.initial p)).getLast? =
        some (.converged ⟨493, 483, 493, 1000, 10⟩) ∧
      (State.drive (p.shift d) (tally (p.shift d) errors) 10 0
        (State.initial (p.shift d))).getLast? =
        some (.converged ⟨18446744073709551108, 18446744073709551098, 18446744073709551108,
          18446744073709551615, 10⟩) := by
  intro p d errors
  have hp : p.Valid := by decide
  have hd : p.band.high + d < frequencyLimit := by decide
  have hnear : (State.drive p (tally p errors) 10 0 (State.initial p)).getLast? =
      some (.converged ⟨493, 483, 493, 1000, 10⟩) := by
    decide
  refine ⟨hp, hd, hnear, ?_⟩
  rw [(search_shift hp hd errors).1 10, List.getLast?_map, hnear]
  simp only [Option.map_some, Transition.shift, State.shift, d]

end Search

end SafeClock
