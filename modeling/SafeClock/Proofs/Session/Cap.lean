import SafeClock.Proofs.Search.Halting
import SafeClock.Proofs.Session.Protocol

/-!
# The bound on the measurements

A session gives up after `maxIterations` measurements. That number is no part of the search: nothing
is measured differently because of it, it only says where a search that is still under way stops.

> **the cap cuts and does not steer**: a loop that ends of itself, or because a tool fails, ends like
> that under every higher cap (`loop_eq_of_le`), and one that is cut has come as far as the cap lets
> it, with the search going on at every candidate (`Advances`).

A cap that is at least the bound on a search (`Leg.length_lt`) never cuts.
-/

set_option autoImplicit false

namespace SafeClock

/-- Whether a request is one to declare a frequency. -/
def Request.declares : Request → Bool
  | setFrequency _ => true
  | readFrequency => false
  | clean => false
  | run _ => false

/-- The number of requests among calls to declare a frequency, met or not. -/
def declarations (calls : List (Request × Bool)) : Nat :=
  (calls.map Prod.fst).countP Request.declares

theorem declarations_append (calls calls' : List (Request × Bool)) :
    declarations (calls ++ calls') = declarations calls + declarations calls' := by
  rw [declarations, List.map_append, List.countP_append]
  rfl

namespace Search.Session

variable {σ : Type} {c : Session} {b : Bench σ} {l l' l₁ l₂ : Ledger σ} {s u : State}
  {left left' cap k n prior : Nat} {ending : Ending} {qs probes probes' : List Probe}

/-! ## One candidate more -/

/-- With a measurement left, a loop ends at this candidate whatever is left after it, or goes on to
the next. -/
theorem loop_cases (c : Session) (b : Bench σ) (s : State) (probes : List Probe) (l : Ledger σ) :
    (∃ ending probes' l', (∀ u, ending ≠ .outOfIterations u) ∧
      ∀ left, c.loop b (left + 1) s probes l = ((ending, probes'), l')) ∨
    ∃ q s' l₁, c.measure b s.current (l.log .info "Profiling frequency") = (.ok q, l₁) ∧
      s.advance c.parameters q = .proceed s' ∧
      ∀ left, c.loop b (left + 1) s probes l =
        c.loop b left s' (q :: probes) (l₁.log .info "Frequency tested") := by
  cases hm : c.measure b s.current (l.log .info "Profiling frequency") with
  | mk o l₁ =>
    cases o with
    | error e =>
      refine .inl ⟨.interrupted s e, probes, l₁.log .error "Measurement aborted by tooling failure",
        by simp, fun left => ?_⟩
      simp only [loop, hm]
    | ok q =>
      cases ht : Termination.ofTransition? c.parameters (s.advance c.parameters q) with
      | some w =>
        refine .inl ⟨.finished (s.advance c.parameters q).state w, q :: probes,
          l₁.log .info "Frequency tested", by simp, fun left => ?_⟩
        simp only [loop, hm, ht]
      | none =>
        obtain ⟨s', ha⟩ := Termination.ofTransition?_eq_none_iff.mp ht
        refine .inr ⟨q, s', l₁, rfl, ha, fun left => ?_⟩
        rw [ha] at ht
        simp only [loop, hm, ha, ht]
        rfl

/-- **A loop that is not cut does not see its cap.** -/
theorem loop_eq_of_le (hle : left ≤ left')
    (h : c.loop b left s probes l = ((ending, probes'), l'))
    (hne : ∀ u, ending ≠ .outOfIterations u) :
    c.loop b left' s probes l = ((ending, probes'), l') := by
  induction left generalizing left' s probes l with
  | zero => exact absurd (congrArg (·.1.1) h).symm (hne s)
  | succ left ih =>
    cases left' with
    | zero => exact absurd hle (Nat.not_succ_le_zero left)
    | succ left' =>
      rcases loop_cases c b s probes l with ⟨_, _, _, _, heq⟩ | ⟨q, s', l₁, _, _, heq⟩
      · rw [heq] at h ⊢
        exact h
      · rw [heq] at h ⊢
        exact ih (Nat.le_of_succ_le_succ hle) h

/-! ## A loop that is cut -/

/-- Candidates that are measured one after the other, none with a tool failing and each with a result
that sends the search on, with the states and the ledgers they lead between. -/
inductive Advances (c : Session) (b : Bench σ) :
    State → Ledger σ → List Probe → State → Ledger σ → Prop
  | rest {s : State} {l : Ledger σ} : Advances c b s l [] s l
  | step {s s' u : State} {l l₁ l₂ : Ledger σ} {q : Probe} {qs : List Probe}
      (hm : c.measure b s.current (l.log .info "Profiling frequency") = (.ok q, l₁))
      (ha : s.advance c.parameters q = .proceed s')
      (h : Advances c b s' (l₁.log .info "Frequency tested") qs u l₂) :
      Advances c b s l (q :: qs) u l₂

/-- A loop goes where its measurements take it, and has as many fewer left. -/
theorem Advances.loop_eq (h : c.Advances b s l qs u l₁) (left : Nat) (probes : List Probe) :
    c.loop b (qs.length + left) s probes l = c.loop b left u (qs.reverse ++ probes) l₁ := by
  induction h generalizing probes with
  | rest => rw [List.length_nil, Nat.zero_add, List.reverse_nil, List.nil_append]
  | step hm ha _ ih =>
    rw [List.length_cons, Nat.succ_add, List.reverse_cons, List.append_assoc, loop, hm]
    simp only [ha]
    exact ih _

/-- **A loop is cut exactly if it advances as far as its cap.** -/
theorem loop_outOfIterations_iff (probes : List Probe) :
    (∃ u, (c.loop b left s probes l).1.1 = .outOfIterations u) ↔
      ∃ qs u l₁, qs.length = left ∧ c.Advances b s l qs u l₁ := by
  constructor
  · rintro ⟨u, h⟩
    induction left generalizing s probes l with
    | zero => exact ⟨[], s, l, rfl, .rest⟩
    | succ left ih =>
      rcases loop_cases c b s probes l with ⟨_, _, _, hne, heq⟩ | ⟨q, s', l₁, hm, ha, heq⟩
      · rw [heq] at h
        exact absurd h (hne u)
      · rw [heq] at h
        obtain ⟨qs, u', l₂, hlen, hadv⟩ := ih _ h
        exact ⟨q :: qs, u', l₂, congrArg Nat.succ hlen, .step hm ha hadv⟩
  · rintro ⟨qs, u, l₁, rfl, h⟩
    have hloop := h.loop_eq 0 probes
    rw [Nat.add_zero] at hloop
    exact ⟨u, congrArg (·.1.1) hloop⟩

/-! ## A session under another cap -/

/-- The same session with another bound on its measurements. -/
def withCap (cap : Nat) (c : Session) : Session := { c with maxIterations := cap }

theorem trial_withCap : (c.withCap cap).trial b l = c.trial b l := by
  unfold trial
  cases b.ask .clean l with
  | mk o l₁ =>
    cases o with
    | error e => rfl
    | ok u =>
      cases hrun : b.ask (.run c.application) l₁ with
      | mk o l₂ =>
        -- The type of an answer names the workload, and with it the session.
        have hrun' : b.ask (.run (c.withCap cap).application) l₁ = (o, l₂) := hrun
        simp only [hrun, hrun']
        cases o <;> rfl

theorem trials_withCap {errors : Nat} :
    (c.withCap cap).trials b left errors l = c.trials b left errors l := by
  induction left generalizing errors l with
  | zero => rfl
  | succ left ih => simp only [trials, trial_withCap, ih]

theorem measure_withCap {hz : Nat} : (c.withCap cap).measure b hz l = c.measure b hz l := by
  simp only [measure, trials_withCap]
  rfl

theorem loop_withCap (cap : Nat) :
    (c.withCap cap).loop b left s probes l = c.loop b left s probes l := by
  induction left generalizing s probes l with
  | zero => rfl
  | succ left ih =>
    simp only [loop, measure_withCap, ih]
    rfl

/-- A search that is not cut is the same under every higher cap. -/
theorem search_withCap (hle : c.maxIterations ≤ cap)
    (hsearch : c.search b l = ((ending, probes), l₁)) (hne : ∀ u, ending ≠ .outOfIterations u) :
    (c.withCap cap).search b l = ((ending, probes), l₁) := by
  cases hloop : c.loop b c.maxIterations (State.initial c.parameters) []
      (l.log .info "Captured original platform frequency") with
  | mk found l' =>
    obtain ⟨⟨rfl, rfl⟩, rfl⟩ := by simpa [search, hloop] using hsearch
    have hhigher := loop_eq_of_le hle hloop hne
    rw [← loop_withCap cap] at hhigher
    simp only [search]
    rw [show (c.withCap cap).loop b (c.withCap cap).maxIterations
      (State.initial (c.withCap cap).parameters) [] _ = _ from hhigher]

/-- And so is what is made of it. -/
theorem wayBack_withCap (hne : ∀ u, ending ≠ .outOfIterations u) :
    (c.withCap cap).wayBack b prior ending probes l = c.wayBack b prior ending probes l := by
  unfold wayBack
  cases b.ask (.setFrequency prior) l with
  | mk restored l' =>
    cases ending with
    | finished | interrupted => cases restored <;> rfl
    | outOfIterations u => exact absurd rfl (hne u)

/-! ## How many candidates are declared -/

theorem countP_declares_block (hz : Nat) : (c.block hz).countP Request.declares = 1 := by
  have hrounds : (c.rounds c.parameters.trials).countP Request.declares = 0 := by
    simp [rounds, Request.declares]
  rw [block, List.countP_cons_of_pos rfl, hrounds]

theorem declarations_metCalls (requests : List Request) :
    declarations (metCalls requests) = requests.countP Request.declares := by
  rw [declarations, metCalls, List.map_map]
  exact congrArg _ (List.map_id _)

theorem CutShort.declarations_le {requests : List Request} {calls : List (Request × Bool)}
    (h : CutShort requests calls) : declarations calls ≤ requests.countP Request.declares := by
  cases h with
  | failed done rest r =>
    have hlast : declarations [(r, false)] = [r].countP Request.declares := rfl
    rw [declarations_append, declarations_metCalls, hlast, List.append_cons,
      List.countP_append, List.countP_append]
    exact Nat.le_add_right _ _

/-- Every block of a loop declares its candidate and nothing else. -/
theorem countP_declares_blocks (c : Session) (probes : List Probe) :
    (probes.flatMap fun q => c.block q.frequency).countP Request.declares = probes.length := by
  induction probes with
  | nil => rfl
  | cons q probes ih =>
    rw [List.flatMap_cons, List.countP_append, countP_declares_block, ih, List.length_cons,
      Nat.add_comm]

/-- **A loop declares as many candidates as its cap at most**, the one a tool fails at included. -/
theorem Explains.declarations_le {ms : List Measurement} {xs : List Exchange}
    (h : c.Explains s left ms ending xs)
    (hall : ∀ m ∈ ms, m.traces.length = c.parameters.trials) :
    declarations ((ms.flatMap c.exchanges ++ xs).map Exchange.call) ≤ left := by
  rw [List.map_append, declarations_append, calls_flatMap_exchanges hall, declarations_metCalls,
    countP_declares_blocks, List.length_map]
  cases h with
  | finished hle => exact hle
  | interrupted hlt _ hx =>
    have hcut := hx.cutShort.declarations_le
    rw [countP_declares_block] at hcut
    exact Nat.le_trans (Nat.add_le_add_left hcut _) hlt
  | outOfIterations heq => exact Nat.le_of_eq heq

/-! ## What the cap does to a session -/

theorem outcome_eq_iterationLimit_iff {restored : Except ToolingError Unit} :
    c.outcome prior ending probes restored = .error (.iterationLimit n) ↔
      (∃ u, ending = .outOfIterations u) ∧ restored = .ok () ∧ c.maxIterations = n := by
  cases ending <;> cases restored <;> simp [outcome, conclude]

/-- A session that returns a report, or is aborted, was not cut. -/
theorem not_outOfIterations {restored : Except ToolingError Unit}
    (h : (∃ r, c.outcome prior ending probes restored = .ok r) ∨
      ∃ hz e r, c.outcome prior ending probes restored = .error (.aborted hz e r)) :
    ∀ u, ending ≠ .outOfIterations u := by
  rintro u rfl
  cases restored <;> simp [outcome, conclude] at h

/-- The last call of a session is the last write. -/
theorem getLast?_calls_run (hp : c.parameters.check = .ok ())
    (hread : b.ask .readFrequency l = (.ok prior, l₁)) :
    (c.run b l).2.calls.getLast? = some (Exchange.call
      ⟨.setFrequency prior, (b.ask (.setFrequency prior) (c.search b l₁).2).1⟩) := by
  rw [run_of_read hp hread rfl, (c.dialogue_wayBack b prior _ _ _).calls_eq, List.map_singleton,
    List.getLast?_concat]
  rfl

/-- A session that is left by its cap was at a candidate for each measurement allowed. -/
theorem iterationLimit_iff_advances (hp : c.parameters.check = .ok ())
    (hread : b.ask .readFrequency l = (.ok prior, l₁))
    (hlast : (c.run b l).2.calls.getLast? = some (.setFrequency prior, true)) :
    (c.run b l).1 = .error (.iterationLimit c.maxIterations) ↔
      ∃ qs u l₂, qs.length = c.maxIterations ∧ c.Advances b (.initial c.parameters)
        (l₁.log .info "Captured original platform frequency") qs u l₂ := by
  rw [getLast?_calls_run hp hread] at hlast
  have hrestored : (b.ask (.setFrequency prior) (c.search b l₁).2).1 = .ok () := by
    cases hwrite : (b.ask (.setFrequency prior) (c.search b l₁).2).1 with
    | ok u => rfl
    | error e =>
      rw [hwrite] at hlast
      exact absurd hlast (by simp [Exchange.call])
  rw [run_of_read hp hread rfl, wayBack_fst, outcome_eq_iterationLimit_iff,
    ← loop_outOfIterations_iff []]
  exact ⟨fun h => h.1, fun h => ⟨h, hrestored, rfl⟩⟩

/-- A session that is not cut is the same under every higher cap, journal and all. -/
theorem run_withCap (hp : c.parameters.check = .ok ()) (hle : c.maxIterations ≤ cap)
    (h : (∃ r, (c.run b l).1 = .ok r) ∨ ∃ hz e r, (c.run b l).1 = .error (.aborted hz e r)) :
    (c.withCap cap).run b l = c.run b l := by
  cases hread : b.ask .readFrequency l with
  | mk o l₁ =>
    cases o with
    | error e =>
      have hsetup : (c.run b l).1 = .error (.setup e) := by simp [run, hp, hread]
      rw [hsetup] at h
      exact absurd h (by simp)
    | ok prior =>
      cases hsearch : c.search b l₁ with
      | mk found l₂ =>
        obtain ⟨ending, probes⟩ := found
        rw [run_of_read hp hread hsearch, wayBack_fst] at h
        have hne := not_outOfIterations h
        rw [run_of_read hp hread hsearch,
          run_of_read (c := c.withCap cap) hp hread (search_withCap hle hsearch hne),
          wayBack_withCap hne]

/-- A cap that is at least the bound on a search never cuts. -/
theorem ne_iterationLimit (hp : c.parameters.Valid)
    (hk : c.parameters.band.high - c.parameters.band.low ≤ c.parameters.step * 2 ^ k)
    (hcap : k + (c.parameters.band.high - c.parameters.band.low) / c.parameters.step + 2 ≤
      c.maxIterations) : (c.run b l).1 ≠ .error (.iterationLimit n) := by
  obtain ⟨xs, -, hx⟩ := c.run_transcript b l
  intro h
  rw [h] at hx
  generalize hresult : (.error (.iterationLimit n) : Except SessionError Report) = result at hx
  cases hx with
  | invalid | setup => exact absurd hresult (by simp)
  | searched _ _ hex =>
    obtain ⟨⟨u, rfl⟩, -, -⟩ := outcome_eq_iterationLimit_iff.mp hresult.symm
    cases hex with
    | outOfIterations heq hl =>
      have hlt := hl.length_lt hp hk
      rw [List.length_map, heq] at hlt
      exact absurd hcap (Nat.not_le_of_lt hlt)

/-- The way back is one declaration more than the candidates. -/
theorem declarations_run_le (c : Session) (b : Bench σ) (l : Ledger σ) :
    ∃ calls, (c.run b l).2.calls = l.calls ++ calls ∧
      declarations calls ≤ c.maxIterations + 1 := by
  obtain ⟨xs, hd, hx⟩ := c.run_transcript b l
  refine ⟨_, hd.calls_eq, ?_⟩
  generalize (c.run b l).1 = result at hx
  cases hx with
  | invalid | setup => exact Nat.zero_le _
  | @searched prior ms ending cut restored _ hall hex =>
    rw [List.map_append, List.map_cons, declarations_append]
    -- The read declares nothing, and the last write is one declaration.
    exact Nat.add_le_add_right (hex.declarations_le hall) 1

/-- **The cap only cuts.** A session declares as many candidates as its cap at most. One whose last
write is met is left by its cap exactly if it measured that many candidates, no tool failing and
every result sending the search on. One that returns a report, or is aborted, is the same session
under every higher cap, call by call. And under a cap that is at least the bound on a search, none
is left by it. -/
theorem cap_only_cuts (hp : c.parameters.Valid) (b : Bench σ) (l : Ledger σ) :
    (∃ calls, (c.run b l).2.calls = l.calls ++ calls ∧
      declarations calls ≤ c.maxIterations + 1) ∧
    (∀ prior l₁, b.ask .readFrequency l = (.ok prior, l₁) →
      (c.run b l).2.calls.getLast? = some (.setFrequency prior, true) →
      ((c.run b l).1 = .error (.iterationLimit c.maxIterations) ↔
        ∃ qs u l₂, qs.length = c.maxIterations ∧ c.Advances b (.initial c.parameters)
          (l₁.log .info "Captured original platform frequency") qs u l₂)) ∧
    (∀ cap, c.maxIterations ≤ cap →
      ((∃ r, (c.run b l).1 = .ok r) ∨ ∃ hz e r, (c.run b l).1 = .error (.aborted hz e r)) →
      (c.withCap cap).run b l = c.run b l) ∧
    ∀ k, c.parameters.band.high - c.parameters.band.low ≤ c.parameters.step * 2 ^ k →
      k + (c.parameters.band.high - c.parameters.band.low) / c.parameters.step + 2 ≤
        c.maxIterations →
      ∀ n, (c.run b l).1 ≠ .error (.iterationLimit n) := by
  have hcheck := (Parameters.check_eq_ok_iff _).mpr hp
  refine ⟨declarations_run_le c b l, fun prior l₁ hread hlast => ?_, fun cap hle h => ?_,
    fun k hk hcap n => ne_iterationLimit hp hk hcap⟩
  · exact iterationLimit_iff_advances hcheck hread hlast
  · exact run_withCap hcheck hle h

/-- A workload that fails above 120 Hz is given up after 200 Hz and 150 Hz under a cap of 2. Under a
cap of 5, the bound for a band of two steps, it comes to its end, and a higher cap is no help. -/
theorem cap_only_cuts_at_two :
    let c : Session := ⟨⟨⟨100, 200⟩, 50, 1⟩, "IRQ", .empty, "sort", 2⟩
    let script : Bench.Script := { rules := [{ low := some 121, runs := [.ok "IRQ a\nIRQ b"] }] }
    let l : Ledger Bench.Script.Progress := .fresh { declared := 120 }
    let l₁ := (script.bench.ask .readFrequency l).2
    c.parameters.Valid ∧ (c.run script.bench l).1 = .error (.iterationLimit 2) ∧
      (∃ qs u l₂, qs.length = 2 ∧ c.Advances script.bench (.initial c.parameters)
        (l₁.log .info "Captured original platform frequency") qs u l₂) ∧
      (∀ n, ((c.withCap 5).run script.bench l).1 ≠ .error (.iterationLimit n)) ∧
      ((c.withCap 5).withCap 1000).run script.bench l = (c.withCap 5).run script.bench l := by
  intro c script l l₁
  have hp : c.parameters.Valid := by decide
  have hcut : (c.run script.bench l).1 = .error (.iterationLimit 2) := by
    simp only [c, script, l]
    rfl
  have hread : script.bench.ask .readFrequency l = (.ok 120, l₁) := rfl
  have hlast : (c.run script.bench l).2.calls.getLast? = some (.setFrequency 120, true) :=
    getLast?_calls_run (by decide) hread
  have hends : ((c.withCap 5).run script.bench l).1 = .ok ⟨120, 100, 200, 100, .floorReached, 3,
      c.parameters, [⟨200, 1, 1⟩, ⟨150, 1, 1⟩, ⟨125, 1, 1⟩]⟩ := by
    simp only [c, script, l]
    rfl
  obtain ⟨-, hiff, -, -⟩ := cap_only_cuts hp script.bench l
  obtain ⟨-, -, hsame, hnever⟩ := cap_only_cuts (c := c.withCap 5) hp script.bench l
  exact ⟨hp, hcut, (hiff 120 l₁ hread hlast).mp hcut, hnever 1 (by decide) (by decide),
    hsame 1000 (by decide) (.inl ⟨_, hends⟩)⟩

end Search.Session

end SafeClock
