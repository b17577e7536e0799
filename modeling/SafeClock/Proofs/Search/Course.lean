import SafeClock.Proofs.Search.Move

/-!
# The course of a search

`State.advance` takes one result in. A claim about a search is about all of them, in order, and
about the transition that ends it. `Leg` is a stretch that has not ended and `Run` one that has;
both carry a relation `R` that says which results may be measured at which state, so that one
induction serves noisy platforms (`Measured`) as well as well-behaved ones.

> **one step decides**: what every step keeps, every leg keeps (`Leg.keeps`), and the last step of
> every run starts from it (`Run.final`).

`State.drive` computes a run from a function that measures, and `run_of_drive` says that what it
computes is one.
-/

set_option autoImplicit false

namespace SafeClock.Search

variable {p : Parameters} {R R' : State → Probe → Prop}

/-- What the trials at the candidate of a state can come to: any number of them may fail. -/
structure Measured (p : Parameters) (s : State) (q : Probe) : Prop where
  frequency_eq : q.frequency = s.current
  total_eq : q.total = p.trials
  errors_le : q.errors ≤ p.trials

/-- A stretch of a search, with its results in order, that leads from a state to a state. -/
inductive Leg (p : Parameters) (R : State → Probe → Prop) : State → List Probe → State → Prop
  | rest {s : State} : Leg p R s [] s
  | step {s s' u : State} {q : Probe} {qs : List Probe} (hq : R s q)
      (ha : s.advance p q = .proceed s') (hl : Leg p R s' qs u) : Leg p R s (q :: qs) u

/-- A search from a state to its end, with its results in order. -/
inductive Run (p : Parameters) (R : State → Probe → Prop) :
    State → List Probe → Transition → Prop
  | last {s : State} {q : Probe} {t : Transition} (hq : R s q) (ha : s.advance p q = t)
      (ht : t.isTerminal = true) : Run p R s [q] t
  | step {s s' : State} {q : Probe} {qs : List Probe} {t : Transition} (hq : R s q)
      (ha : s.advance p q = .proceed s') (hr : Run p R s' qs t) : Run p R s (q :: qs) t

/-! ## Legs -/

/-- **What every step keeps, every leg keeps.** -/
theorem Leg.keeps {I : State → Prop}
    (hI : ∀ s q s', I s → R s q → s.advance p q = .proceed s' → I s')
    {s u : State} {qs : List Probe} (h : Leg p R s qs u) (hs : I s) : I u := by
  induction h with
  | rest => exact hs
  | step hq ha _ ih => exact ih (hI _ _ _ hs hq ha)

theorem Leg.mono (hR : ∀ s q, R s q → R' s q) {s u : State} {qs : List Probe}
    (h : Leg p R s qs u) : Leg p R' s qs u := by
  induction h with
  | rest => exact .rest
  | step hq ha _ ih => exact .step (hR _ _ hq) ha ih

/-- A leg grows at its end, too. -/
theorem Leg.concat {s u u' : State} {qs : List Probe} {q : Probe} (h : Leg p R s qs u)
    (hq : R u q) (ha : u.advance p q = .proceed u') : Leg p R s (qs ++ [q]) u' := by
  induction h with
  | rest => exact .step hq ha .rest
  | step hr hb _ ih => exact .step hr hb (ih hq ha)

/-- **What every step keeps of the results so far, every leg keeps.** -/
theorem Leg.keeps_history {I : List Probe → State → Prop} {s u : State} {qs : List Probe}
    (hI : ∀ rs m q m', Leg p R s rs m → I rs m → R m q → m.advance p q = .proceed m' →
      I (rs ++ [q]) m')
    (h : Leg p R s qs u) (hs : I [] s) : I qs u := by
  -- Legs grow at the front, so the results that lie behind are carried along.
  have hfrom : ∀ rs m, Leg p R s rs m → I rs m → ∀ qs v, Leg p R m qs v → I (rs ++ qs) v := by
    intro rs m hl hm qs v hv
    induction hv generalizing rs with
    | rest => rwa [List.append_nil]
    | step hq ha _ ih =>
      rw [List.append_cons]
      exact ih _ (hl.concat hq ha) (hI _ _ _ _ hl hm hq ha)
  exact hfrom [] s .rest hs qs u h

theorem Leg.enclosed {s u : State} {qs : List Probe} (h : Leg p R s qs u)
    (hs : s.Enclosed p) : u.Enclosed p :=
  h.keeps (fun _ _ _ hs _ ha => hs.next ha) hs

/-- A state counts the results that led to it. -/
theorem Leg.iteration_eq {s u : State} {qs : List Probe} (h : Leg p R s qs u) :
    u.iteration = s.iteration + qs.length := by
  induction h with
  | rest => rfl
  | step hq ha _ ih =>
    have hi := (State.move_of_advance ha).iteration_eq
    rw [Transition.state] at hi
    rw [ih, hi, List.length_cons]
    omega

/-! ## Runs -/

theorem Run.mono (hR : ∀ s q, R s q → R' s q) {s : State} {qs : List Probe} {t : Transition}
    (h : Run p R s qs t) : Run p R' s qs t := by
  induction h with
  | last hq ha ht => exact .last (hR _ _ hq) ha ht
  | step hq ha _ ih => exact .step (hR _ _ hq) ha ih

theorem Run.iteration_eq {s : State} {qs : List Probe} {t : Transition} (h : Run p R s qs t) :
    t.state.iteration = s.iteration + qs.length := by
  induction h with
  | last _ ha _ => exact (State.move_of_advance ha).iteration_eq
  | step hq ha _ ih =>
    have hi := (State.move_of_advance ha).iteration_eq
    rw [Transition.state] at hi
    rw [ih, hi, List.length_cons]
    omega

/-- A run is a leg and one more result, which ends it. -/
theorem run_iff_leg {s : State} {qs : List Probe} {t : Transition} :
    Run p R s qs t ↔ ∃ rs q u, qs = rs ++ [q] ∧ Leg p R s rs u ∧ R u q ∧ u.advance p q = t ∧
      t.isTerminal = true := by
  constructor
  · intro h
    induction h with
    | last hq ha ht => exact ⟨[], _, _, rfl, .rest, hq, ha, ht⟩
    | step hq ha _ ih =>
      obtain ⟨rs, q, u, rfl, hl, hu, hadv, ht⟩ := ih
      exact ⟨_ :: rs, q, u, rfl, .step hq ha hl, hu, hadv, ht⟩
  · rintro ⟨rs, q, u, rfl, hl, hu, hadv, ht⟩
    induction hl with
    | rest => exact .last hu hadv ht
    | step hq ha _ ih => exact .step hq ha (ih hu hadv)

/-- What every step keeps holds wherever a run measures. -/
theorem Run.keeps {I : State → Prop}
    (hI : ∀ s q s', I s → R s q → s.advance p q = .proceed s' → I s')
    {s : State} {qs : List Probe} {t : Transition} (h : Run p R s qs t) (hs : I s) :
    Run p (fun s q => R s q ∧ I s) s qs t := by
  induction h with
  | last hq ha ht => exact .last ⟨hq, hs⟩ ha ht
  | step hq ha _ ih => exact .step ⟨hq, hs⟩ ha (ih (hI _ _ _ hs hq ha))

theorem Run.forall_mem {P : Probe → Prop} (hP : ∀ s q, R s q → P q) {s : State}
    {qs : List Probe} {t : Transition} (h : Run p R s qs t) : ∀ q ∈ qs, P q := by
  induction h with
  | last hq _ _ => exact List.forall_mem_singleton.mpr (hP _ _ hq)
  | step hq _ _ ih => exact List.forall_mem_cons.mpr ⟨hP _ _ hq, ih⟩

/-- **What every step keeps, the last step starts from.** -/
theorem Run.final {I : State → Prop}
    (hI : ∀ s q s', I s → R s q → s.advance p q = .proceed s' → I s')
    {s : State} {qs : List Probe} {t : Transition} (h : Run p R s qs t) (hs : I s) :
    ∃ u q, I u ∧ R u q ∧ u.advance p q = t ∧ t.isTerminal = true := by
  obtain ⟨rs, q, u, rfl, hl, hu, ha, ht⟩ := run_iff_leg.mp h
  exact ⟨u, q, hl.keeps hI hs, hu, ha, ht⟩

/-- The last result of a run is measured at a state whose bounds enclose the candidate. -/
theorem Run.exists_last {s : State} {qs : List Probe} {t : Transition} (h : Run p R s qs t)
    (hs : s.Enclosed p) :
    ∃ u q, u.Enclosed p ∧ R u q ∧ u.advance p q = t ∧ t.isTerminal = true :=
  h.final (fun _ _ _ hs _ ha => hs.next ha) hs

/-! ## What `drive` computes -/

variable {measure : Nat → State → Probe} {fuel n i : Nat} {s : State} {t : Transition}

/-- With fuel left, a driven search makes a step, and goes on or is done. -/
theorem drive_cases (p : Parameters) (measure : Nat → State → Probe) (i : Nat) (s : State) :
    (∃ s', s.advance p (measure i s) = .proceed s' ∧ ∀ fuel,
      State.drive p measure (fuel + 1) i s =
        .proceed s' :: State.drive p measure fuel (i + 1) s') ∨
    (∃ t, s.advance p (measure i s) = t ∧ t.isTerminal = true ∧ ∀ fuel,
      State.drive p measure (fuel + 1) i s = [t]) := by
  cases ha : s.advance p (measure i s) with
  | proceed s' =>
    refine Or.inl ⟨s', rfl, fun fuel => ?_⟩
    rw [State.drive, ha]
  | converged u =>
    refine Or.inr ⟨_, rfl, rfl, fun fuel => ?_⟩
    rw [State.drive, ha]
  | exhausted boundary u =>
    refine Or.inr ⟨_, rfl, rfl, fun fuel => ?_⟩
    rw [State.drive, ha]

/-- What ends a driven search is found behind every step that goes on. -/
theorem getLast?_drive_cons {s' : State} (h : (Transition.proceed s' ::
      State.drive p measure fuel i s').getLast? = some t) (ht : t.isTerminal = true) :
    (State.drive p measure fuel i s').getLast? = some t := by
  rw [List.getLast?_cons] at h
  cases hd : (State.drive p measure fuel i s').getLast? with
  | none =>
    -- A transition that proceeds ends nothing.
    rw [hd, Option.getD_none, Option.some.injEq] at h
    subst h
    exact absurd ht (by simp [Transition.isTerminal])
  | some t' => rwa [hd, Option.getD_some] at h

/-- The transition that ends a driven search ends a run of the results it measured, one for each
transition. -/
theorem run_of_drive (hm : ∀ i s, R s (measure i s))
    (h : (State.drive p measure fuel i s).getLast? = some t) (ht : t.isTerminal = true) :
    ∃ qs, Run p R s qs t ∧ qs.length = (State.drive p measure fuel i s).length := by
  induction fuel generalizing i s with
  | zero => exact absurd h (by simp [State.drive])
  | succ fuel ih =>
    rcases drive_cases p measure i s with ⟨s', ha, hd⟩ | ⟨t', ha, ht', hd⟩
    · rw [hd] at h ⊢
      obtain ⟨qs, hr, hlen⟩ := ih (getLast?_drive_cons h ht)
      exact ⟨_ :: qs, .step (hm i s) ha hr, by rw [List.length_cons, hlen, List.length_cons]⟩
    · rw [hd] at h ⊢
      rw [List.getLast?_singleton, Option.some.injEq] at h
      exact ⟨[measure i s], .last (hm i s) (h ▸ ha) ht, rfl⟩

/-- **Fuel that is left over changes nothing.** -/
theorem drive_eq_of_length_le (h : (State.drive p measure fuel i s).getLast? = some t)
    (ht : t.isTerminal = true) (hn : (State.drive p measure fuel i s).length ≤ n) :
    State.drive p measure n i s = State.drive p measure fuel i s := by
  induction fuel generalizing n i s with
  | zero => exact absurd h (by simp [State.drive])
  | succ fuel ih =>
    rcases drive_cases p measure i s with ⟨s', _, hd⟩ | ⟨t', _, _, hd⟩
    · rw [hd] at h hn
      cases n with
      | zero => exact absurd hn (by simp)
      | succ n =>
        rw [hd, hd, ih (getLast?_drive_cons h ht) (Nat.le_of_succ_le_succ hn)]
    · rw [hd] at hn
      cases n with
      | zero => exact absurd hn (by simp)
      | succ n => rw [hd, hd]

theorem length_drive_le : (State.drive p measure fuel i s).length ≤ fuel := by
  induction fuel generalizing i s with
  | zero => exact Nat.le_refl 0
  | succ fuel ih =>
    rcases drive_cases p measure i s with ⟨s', _, hd⟩ | ⟨t', _, _, hd⟩
    · rw [hd]
      exact Nat.succ_le_succ ih
    · rw [hd]
      exact Nat.succ_le_succ (Nat.zero_le _)

/-- Every transition of a driven search is a step from a state that a leg leads to. -/
theorem leg_of_mem_drive (hm : ∀ i s, R s (measure i s))
    (h : t ∈ State.drive p measure fuel i s) :
    ∃ qs u q, Leg p R s qs u ∧ R u q ∧ u.advance p q = t := by
  induction fuel generalizing i s with
  | zero => exact absurd h (by simp [State.drive])
  | succ fuel ih =>
    rcases drive_cases p measure i s with ⟨s', ha, hd⟩ | ⟨t', ha, _, hd⟩
    · rw [hd] at h
      rcases List.mem_cons.mp h with rfl | h
      · exact ⟨[], s, _, .rest, hm i s, ha⟩
      · obtain ⟨qs, u, q, hl, hq, hu⟩ := ih h
        exact ⟨_ :: qs, u, q, .step (hm i s) ha hl, hq, hu⟩
    · rw [hd] at h
      rcases List.mem_singleton.mp h with rfl
      exact ⟨[], s, _, .rest, hm i s, ha⟩

end SafeClock.Search
