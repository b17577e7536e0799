import Mathlib.Algebra.Order.Ring.Nat
import SafeClock.Proofs.Search.Course

/-!
# Every search comes to an end

However a platform answers, the bounds close in on each other and the walk down runs out of band.
`Halts` says that a search which is driven for so many results ends within them, and this file
counts them from the back: the walk needs one result for each step that is left above the floor,
and each halving before it one more.

> **the bound**: with `high - low ≤ step * 2 ^ k`, every search ends within
> `k + (high - low) / step + 2` results (`halts_initial`), so one that is under way has taken in
> fewer (`Leg.length_lt`).

The `+ 2` is the walk's last result and the first result of all: a failure at the ceiling moves the
candidate and leaves the gap as wide as it was. A band of 5 Hz with a step of 2 Hz can need every one
of them.
-/

set_option autoImplicit false

namespace SafeClock.Search

variable {p : Parameters} {measure : Nat → State → Probe} {fuel i k : Nat} {s s' : State}

/-- A search that is driven for `fuel` results ends within them. -/
def Halts (p : Parameters) (measure : Nat → State → Probe) (fuel i : Nat) (s : State) : Prop :=
  ∃ t, (State.drive p measure fuel i s).getLast? = some t ∧ t.isTerminal = true

theorem not_halts_zero : ¬Halts p measure 0 i s := by
  rintro ⟨t, ht, _⟩
  exact absurd ht (by simp [State.drive])

theorem halts_of_terminal (h : (s.advance p (measure i s)).isTerminal = true) :
    Halts p measure (fuel + 1) i s := by
  rcases drive_cases p measure i s with ⟨s', ha, _⟩ | ⟨t, _, ht, hd⟩
  · exact absurd h (by simp [ha, Transition.isTerminal])
  · exact ⟨t, by rw [hd, List.getLast?_singleton], ht⟩

theorem halts_of_next (ha : s.advance p (measure i s) = .proceed s')
    (h : Halts p measure fuel (i + 1) s') : Halts p measure (fuel + 1) i s := by
  obtain ⟨t, ht, hterm⟩ := h
  refine ⟨t, ?_, hterm⟩
  rw [State.drive, ha]
  simp [List.getLast?_cons, ht]

/-- Once a search has ended, fuel changes nothing: it takes as many results as it has counted. -/
theorem Halts.settles (h : Halts p measure fuel i s) :
    ∃ n last, n ≤ fuel ∧ last.isTerminal = true ∧ last.state.iteration = s.iteration + n ∧
      ∀ fuel', n ≤ fuel' →
        (State.drive p measure fuel' i s).length = n ∧
        (State.drive p measure fuel' i s).getLast? = some last := by
  obtain ⟨last, hlast, hterm⟩ := h
  obtain ⟨qs, hrun, hlen⟩ := run_of_drive (R := fun _ _ => True) (fun _ _ => trivial) hlast hterm
  refine ⟨qs.length, last, hlen ▸ length_drive_le, hterm, hrun.iteration_eq, fun fuel' hn => ?_⟩
  rw [drive_eq_of_length_le hlast hterm (hlen ▸ hn)]
  exact ⟨hlen.symm, hlast⟩

/-- No candidate has more steps below it than the ceiling. -/
theorem steps_le (hs : s.Enclosed p) :
    (s.current - p.band.low) / p.step ≤ (p.band.high - p.band.low) / p.step :=
  Nat.div_le_div_right (Nat.sub_le_sub_right hs.current_le_high _)

/-- The walk down: a whole step each time, so one result for each step above the floor and one that
finds the floor. -/
theorem halts_walk (hp : 0 < p.step) (hs : s.Enclosed p) (hgap : s.upper - s.lower ≤ p.step)
    (hfuel : (s.current - p.band.low) / p.step < fuel) : Halts p measure fuel i s := by
  induction fuel generalizing i s with
  | zero => exact absurd hfuel (Nat.not_lt_zero _)
  | succ fuel ih =>
    have hmove := s.move p (measure i s)
    generalize ha : s.advance p (measure i s) = t at hmove
    cases hmove with
    | raise _ hwide | ceiling _ hwide | sink _ hwide =>
      exact absurd hgap (Nat.not_le_of_lt hwide)
    | settle | floor => exact halts_of_terminal (by rw [ha]; rfl)
    | descend _ _ hfit =>
      refine halts_of_next ha (ih (hs.next ha) (close_next hgap ha) ?_)
      have hstep : s.current - p.band.low = s.current - p.step - p.band.low + p.step := by omega
      rw [hstep, Nat.add_div_right _ hp] at hfuel
      exact Nat.lt_of_succ_lt_succ hfuel

/-- While the candidate is half way between the bounds, every result halves the gap, and after `k`
halvings there is at most the whole band left to walk. -/
theorem halts_bisect (hp : 0 < p.step) (hs : s.Enclosed p)
    (hmid : s.current = s.lower + (s.upper - s.lower) / 2)
    (hgap : s.upper - s.lower ≤ p.step * 2 ^ k)
    (hfuel : k + (p.band.high - p.band.low) / p.step < fuel) : Halts p measure fuel i s := by
  induction k generalizing i s fuel with
  | zero =>
    have hdiv := steps_le hs
    exact halts_walk hp hs (by omega) (by omega)
  | succ k ih =>
    have hdiv := steps_le hs
    by_cases hclose : s.upper - s.lower ≤ p.step
    · exact halts_walk hp hs hclose (by omega)
    · cases fuel with | zero => exact absurd hfuel (Nat.not_lt_zero _) | succ fuel
      have hhalf : p.step * 2 ^ (k + 1) = p.step * 2 ^ k * 2 := by rw [Nat.pow_succ, Nat.mul_assoc]
      have hmove := s.move p (measure i s)
      generalize ha : s.advance p (measure i s) = t at hmove
      cases hmove with
      | settle _ hnarrow => exact absurd hnarrow hclose
      | descend _ hnarrow => exact absurd hnarrow hclose
      | floor _ hnarrow => exact absurd hnarrow hclose
      | ceiling => exact absurd ha hs.no_ceiling
      | raise =>
        refine halts_of_next ha (ih (hs.next ha) rfl ?_ (by omega))
        show s.upper - s.current ≤ p.step * 2 ^ k
        omega
      | sink =>
        refine halts_of_next ha (ih (hs.next ha) rfl ?_ (by omega))
        show s.current - s.lower ≤ p.step * 2 ^ k
        omega

/-- **Every search ends**, and the number of its results has a bound that the parameters give. -/
theorem halts_initial (measure : Nat → State → Probe) (hp : p.Valid)
    (hk : p.band.high - p.band.low ≤ p.step * 2 ^ k)
    (hfuel : k + (p.band.high - p.band.low) / p.step + 2 ≤ fuel) :
    Halts p measure fuel 0 (State.initial p) := by
  have hs := State.enclosed_initial hp
  cases fuel with | zero => exact absurd hfuel (Nat.not_succ_le_zero _) | succ fuel
  have hmove := (State.initial p).move p (measure 0 (State.initial p))
  generalize ha : (State.initial p).advance p (measure 0 (State.initial p)) = t at hmove
  -- The ceiling is no half-way point, so the first result is counted by itself.
  cases hmove with
  | settle => exact halts_of_terminal (by rw [ha]; rfl)
  | floor => exact halts_of_terminal (by rw [ha]; rfl)
  | ceiling => exact absurd ha hs.no_ceiling
  | raise =>
    exact halts_of_next ha (halts_bisect (k := k) hp.2.1 (hs.next ha)
      (by simp [State.initial]) (by simp [State.initial]) (by omega))
  | sink =>
    exact halts_of_next ha (halts_bisect (k := k) hp.2.1 (hs.next ha)
      (by simp [State.initial]) (by simpa [State.initial] using hk) (by omega))
  | descend _ hclose =>
    have hdiv : (p.band.high - p.step - p.band.low) / p.step ≤
        (p.band.high - p.band.low) / p.step := steps_le (hs.next ha)
    refine halts_of_next ha (halts_walk hp.2.1 (hs.next ha) (close_next hclose ha) ?_)
    simp only [State.initial]
    omega

/-- Enough halvings bring every band down to a step, so no search goes on for ever. -/
theorem exists_halts (hp : p.Valid) (measure : Nat → State → Probe) :
    ∃ fuel, Halts p measure fuel 0 (State.initial p) := by
  have hk : p.band.high - p.band.low ≤ p.step * 2 ^ (p.band.high - p.band.low) :=
    Nat.le_trans (Nat.le_of_lt Nat.lt_two_pow_self) (Nat.le_mul_of_pos_left _ hp.2.1)
  exact ⟨_, halts_initial measure hp hk (Nat.le_refl _)⟩

/-- A function that measures drives the search to an end, and what it measures is a run. -/
theorem exists_run {R : State → Probe → Prop} (hp : p.Valid) (hm : ∀ i s, R s (measure i s)) :
    ∃ fuel qs t, (State.drive p measure fuel 0 (State.initial p)).getLast? = some t ∧
      Run p R (State.initial p) qs t := by
  obtain ⟨fuel, t, hlast, hterm⟩ := exists_halts hp measure
  obtain ⟨qs, hrun, _⟩ := run_of_drive hm hlast hterm
  exact ⟨fuel, qs, t, hlast, hrun⟩

/-! ## The bound on a leg -/

/-- A search that is driven by the results of a leg is still under way when they are used up. -/
theorem Leg.not_halts {R : State → Probe → Prop} {qs : List Probe} {u : State}
    (measure : Nat → State → Probe) (h : Leg p R s qs u)
    (hm : ∀ j q, qs[j]? = some q → ∀ s, measure (i + j) s = q) (hfuel : fuel ≤ qs.length) :
    ¬Halts p measure fuel i s := by
  induction h generalizing fuel i with
  | rest =>
    obtain rfl : fuel = 0 := Nat.le_zero.mp hfuel
    exact not_halts_zero
  | @step s s' u q qs _ ha _ ih =>
    cases fuel with
    | zero => exact not_halts_zero
    | succ fuel =>
      -- The first result is the leg's, so the search goes on where the leg does.
      have hq : measure i s = q := hm 0 q rfl s
      rintro ⟨t, ht, hterm⟩
      rw [State.drive, hq, ha] at ht
      refine ih (i := i + 1) (fun j r hr s => ?_) (Nat.le_of_succ_le_succ hfuel)
        ⟨t, getLast?_drive_cons ht hterm, hterm⟩
      rw [Nat.add_assoc, Nat.add_comm 1 j]
      exact hm (j + 1) r hr s

/-- **A search that is under way has a result to spare.** -/
theorem Leg.length_lt {R : State → Probe → Prop} {qs : List Probe} {u : State} (hp : p.Valid)
    (hk : p.band.high - p.band.low ≤ p.step * 2 ^ k) (h : Leg p R (State.initial p) qs u) :
    qs.length < k + (p.band.high - p.band.low) / p.step + 2 := by
  refine Nat.lt_of_not_le fun hle => ?_
  refine h.not_halts (fun j _ => (qs[j]?).getD ⟨0, 0, 0⟩) (fun j q hq _ => ?_) hle
    (halts_initial _ hp hk (Nat.le_refl _))
  rw [Nat.zero_add, hq, Option.getD_some]

end SafeClock.Search
