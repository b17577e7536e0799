import SafeClock.Proofs.Search.Walk
import SafeClock.Proofs.Session.Replay

/-!
# The calls of a session

What a session does to a board is the list of its calls, and a report does not show it: an extra
try, a run without a clean before it or a trial at the frequency of the last candidate would leave no
trace there. So this file says what the calls are.

> **the protocol**: one read, then for every probe a `block` of calls that are all met, then, if a
> tool stopped the loop, a block that ends with the call that failed, then one write.

A failed call is the last of its block and of the loop, whichever of the three requests it is, and
only the way back comes after it.
-/

set_option autoImplicit false

namespace SafeClock.Search.Session

variable {σ : Type} {c : Session} {b : Bench σ} {l l₁ l₂ : Ledger σ} {prior hz n : Nat}
  {ending : Ending} {probes : List Probe} {calls cut : List (Request × Bool)}
  {requests : List Request}

/-! ## Blocks -/

/-- The requests of so many trials. -/
def rounds (c : Session) (n : Nat) : List Request :=
  (List.replicate n [.clean, .run c.application]).flatten

/-- The requests of a measurement: the candidate is declared, and all its trials are run. -/
def block (c : Session) (hz : Nat) : List Request :=
  .setFrequency hz :: c.rounds c.parameters.trials

/-- What requests come to as calls if all of them are met. -/
def metCalls (requests : List Request) : List (Request × Bool) := requests.map (·, true)

/-- What requests come to as calls if one of them fails: those before it are met, and those behind it
are not put. -/
inductive CutShort : List Request → List (Request × Bool) → Prop
  | failed (done rest : List Request) (r : Request) :
      CutShort (done ++ r :: rest) (metCalls done ++ [(r, false)])

/-- The calls that a loop made at the candidate it was left with: none, unless a tool failed there.
-/
inductive Leftover (c : Session) : Ending → List (Request × Bool) → Prop
  | finished {s : State} {w : Termination} : Leftover c (.finished s w) []
  | interrupted {s : State} {e : ToolingError} {calls : List (Request × Bool)}
      (h : CutShort (c.block s.current) calls) : Leftover c (.interrupted s e) calls
  | outOfIterations {s : State} : Leftover c (.outOfIterations s) []

theorem rounds_succ (c : Session) (n : Nat) :
    c.rounds (n + 1) = .clean :: .run c.application :: c.rounds n := rfl

theorem rounds_add (c : Session) (n k : Nat) : c.rounds (n + k) = c.rounds n ++ c.rounds k := by
  rw [rounds, ← List.replicate_append_replicate, List.flatten_append]
  rfl

theorem eq_of_mem_block (h : .setFrequency hz ∈ c.block n) : hz = n := by
  simpa [block, rounds] using h

theorem CutShort.mem_of_mem {r : Request} {met : Bool} (h : CutShort requests calls)
    (hr : (r, met) ∈ calls) : r ∈ requests := by
  cases h with
  | failed =>
    rcases List.mem_append.mp hr with hr | hr
    · obtain ⟨r', hr', heq⟩ := List.mem_map.mp hr
      obtain ⟨rfl, -⟩ := Prod.mk.inj heq
      exact List.mem_append_left _ hr'
    · obtain ⟨rfl, -⟩ := Prod.mk.inj (List.mem_singleton.mp hr)
      exact List.mem_append_right _ List.mem_cons_self

/-! ## The calls of a measurement -/

theorem calls_trialExchanges (traces : List String) :
    (traces.flatMap c.trialExchanges).map Exchange.call = metCalls (c.rounds traces.length) := by
  induction traces with
  | nil => rfl
  | cons trace traces ih =>
    rw [List.flatMap_cons, List.map_append, ih, List.length_cons, rounds_succ]
    rfl

/-- A measurement that no tool failed in is a block of calls that are met. -/
theorem calls_exchanges {m : Measurement} (hlen : m.traces.length = c.parameters.trials) :
    (c.exchanges m).map Exchange.call = metCalls (c.block m.frequency) := by
  rw [exchanges, List.map_cons, calls_trialExchanges, hlen]
  rfl

/-- Trials that a tool fails in are cut short at its call: at the clean, or behind it at the run. -/
theorem BrokenTrial.cutShort {e : ToolingError} {xs : List Exchange} (h : c.BrokenTrial e xs) :
    CutShort (c.rounds (n + 1)) (xs.map Exchange.call) := by
  rw [rounds_succ]
  cases h with
  | clean => exact .failed [] _ _
  | run => exact .failed [.clean] _ _

theorem CutShort.append (h : CutShort requests calls) (done : List Request) :
    CutShort (done ++ requests) (metCalls done ++ calls) := by
  cases h with
  | failed done' rest r =>
    rw [← List.append_assoc, ← List.append_assoc, metCalls, metCalls, ← List.map_append]
    exact .failed _ _ _

/-- **A measurement that a tool failed in is a block cut short.** -/
theorem BrokenMeasurement.cutShort {e : ToolingError} {xs : List Exchange}
    (h : c.BrokenMeasurement hz e xs) : CutShort (c.block hz) (xs.map Exchange.call) := by
  cases h with
  | write => exact .failed [] _ _
  | @trial traces xs hlt hx =>
    obtain ⟨k, hk⟩ := Nat.exists_eq_add_of_lt hlt
    have hblock : c.block hz = (.setFrequency hz :: c.rounds traces.length) ++ c.rounds (k + 1) := by
      rw [block, hk, Nat.add_assoc, rounds_add]
      rfl
    have hcalls : (c.exchanges ⟨hz, traces⟩).map Exchange.call =
        metCalls (.setFrequency hz :: c.rounds traces.length) := by
      rw [exchanges, List.map_cons, calls_trialExchanges]
      rfl
    rw [hblock, List.map_append, hcalls]
    exact hx.cutShort.append _

/-! ## Nothing follows a failure -/

/-- The first failed call is the last one. -/
def StopsAtFailure (calls : List (Request × Bool)) : Prop :=
  ∀ before r after, calls = before ++ (r, false) :: after → after = []

/-- Where all calls are met but at most the last, there is nothing behind one that was not. -/
theorem stopsAtFailure_metCalls_append (done : List Request) (hlen : calls.length ≤ 1) :
    StopsAtFailure (metCalls done ++ calls) := by
  induction done with
  | nil =>
    rintro before r after rfl
    rw [List.length_append, List.length_cons] at hlen
    exact List.length_eq_zero_iff.mp (by omega)
  | cons d done ih =>
    intro before r after h
    cases before with
    | nil => exact absurd h (by simp [metCalls])
    | cons x before => exact ih before r after (List.cons.inj h).2

theorem CutShort.stopsAtFailure (h : CutShort requests cut) (done : List Request) :
    StopsAtFailure (metCalls done ++ cut) := by
  cases h with
  | failed done' rest r =>
    rw [← List.append_assoc, metCalls, metCalls, ← List.map_append]
    exact stopsAtFailure_metCalls_append _ (Nat.le_refl 1)

theorem Leftover.stopsAtFailure (h : c.Leftover ending cut) (done : List Request) :
    StopsAtFailure (metCalls done ++ cut) := by
  cases h with
  | finished | outOfIterations => exact stopsAtFailure_metCalls_append _ (Nat.zero_le 1)
  | interrupted h => exact h.stopsAtFailure _

/-! ## The calls of a loop -/

theorem Explains.leftover {s : State} {left : Nat} {ms : List Measurement} {xs : List Exchange}
    (h : c.Explains s left ms ending xs) : c.Leftover ending (xs.map Exchange.call) := by
  cases h with
  | finished => exact .finished
  | interrupted _ _ hx => exact .interrupted hx.cutShort
  | outOfIterations => exact .outOfIterations

/-- A loop measures in the band. -/
theorem Explains.in_band {s : State} {left : Nat} {ms : List Measurement} {xs : List Exchange}
    (h : c.Explains s left ms ending xs) (hs : s.Enclosed c.parameters) :
    ∀ q ∈ ms.map c.probeOf, c.parameters.band.contains q.frequency = true := by
  intro q hq
  rw [Band.contains_iff]
  cases h with
  | finished _ hr => exact (hr.mono fun _ _ hq => hq.frequency_eq).in_band hs q hq
  | interrupted _ hl | outOfIterations _ hl =>
    exact (hl.mono fun _ _ hq => hq.frequency_eq).in_band hs q hq

/-- A loop that a tool stops had come as far as its results take it. -/
theorem Explains.leg_of_interrupted {s u : State} {e : ToolingError} {left : Nat}
    {ms : List Measurement} {xs : List Exchange}
    (h : c.Explains s left ms (.interrupted u e) xs) :
    Leg c.parameters (Measured c.parameters) s (ms.map c.probeOf) u := by
  cases h with
  | interrupted _ hl => exact hl

/-- All blocks of a loop together, with their calls met. -/
theorem calls_flatMap_exchanges {ms : List Measurement}
    (hall : ∀ m ∈ ms, m.traces.length = c.parameters.trials) :
    (ms.flatMap c.exchanges).map Exchange.call =
      metCalls ((ms.map c.probeOf).flatMap fun q => c.block q.frequency) := by
  induction ms with
  | nil => rfl
  | cons m ms ih =>
    obtain ⟨hm, hms⟩ := List.forall_mem_cons.mp hall
    rw [List.flatMap_cons, List.map_append, calls_exchanges hm, ih hms, List.map_cons,
      List.flatMap_cons, metCalls, metCalls, metCalls, List.map_append]
    rfl

/-- What is declared between the read and the last write is a probe's frequency, or the candidate that
a tool failed at. -/
theorem mem_loop_calls {met : Bool} (h : c.Leftover ending cut)
    (hmem : (.setFrequency hz, met) ∈ metCalls (probes.flatMap fun q => c.block q.frequency) ++ cut) :
    (∃ q ∈ probes, hz = q.frequency) ∨ ∃ s e, ending = .interrupted s e ∧ hz = s.current := by
  rcases List.mem_append.mp hmem with hmem | hmem
  · obtain ⟨r, hr, heq⟩ := List.mem_map.mp hmem
    obtain ⟨rfl, -⟩ := Prod.mk.inj heq
    obtain ⟨q, hq, hr⟩ := List.mem_flatMap.mp hr
    exact .inl ⟨q, hq, eq_of_mem_block hr⟩
  · cases h with
    | finished | outOfIterations => exact absurd hmem List.not_mem_nil
    | interrupted h => exact .inr ⟨_, _, rfl, eq_of_mem_block (h.mem_of_mem hmem)⟩

/-! ## The calls of a session -/

/-- **The protocol of a session**: the read, a whole block for each probe, what a tool that failed
left of the block of the candidate after them, and the write of what was read. The probes are those
of the report, if there is one. Between the read and that write nothing is called after a call that
failed, and nothing outside the band is declared. -/
theorem run_calls (hp : c.parameters.Valid) (hread : b.ask .readFrequency l = (.ok prior, l₁))
    (hsearch : c.search b l₁ = ((ending, probes), l₂)) :
    ∃ calls cut met,
      (c.run b l).2.calls =
        l.calls ++ ((.readFrequency, true) :: calls ++ [(.setFrequency prior, met)]) ∧
      calls = metCalls (probes.flatMap fun q => c.block q.frequency) ++ cut ∧
      c.Leftover ending cut ∧
      (∀ s e, ending = .interrupted s e →
        Leg c.parameters (Measured c.parameters) (.initial c.parameters) probes s) ∧
      (∀ r, reported? (c.run b l).1 = some r → r.probes = probes) ∧
      StopsAtFailure calls ∧
      ∀ hz met, (.setFrequency hz, met) ∈ calls → c.parameters.band.contains hz = true := by
  have hcheck := (Parameters.check_eq_ok_iff _).mpr hp
  have hrun := run_of_read hcheck hread hsearch
  obtain ⟨ms, xs, hd, hall, rfl, hex⟩ := search_explained hsearch
  have hleft := hex.leftover
  have hinitial := State.enclosed_initial hp
  refine ⟨_, xs.map Exchange.call,
    (Exchange.call ⟨.setFrequency prior, (b.ask (.setFrequency prior) l₂).1⟩).2, ?_, rfl, hleft,
    ?_, ?_, hleft.stopsAtFailure _, ?_⟩
  · have hwrite := c.dialogue_wayBack b prior ending (ms.map c.probeOf) l₂
    rw [hrun, (((Dialogue.of_ask hread).trans hd).trans hwrite).calls_eq,
      ← calls_flatMap_exchanges hall]
    simp only [List.map_append, List.map_cons, List.map_nil, List.append_assoc, List.cons_append,
      List.nil_append]
    rfl
  · rintro s e rfl
    exact hex.leg_of_interrupted
  · intro r hr
    rw [hrun, wayBack_fst] at hr
    rw [reported?_outcome hr]
    rfl
  · intro hz met hmem
    rcases mem_loop_calls hleft hmem with ⟨q, hq, rfl⟩ | ⟨s, e, rfl, rfl⟩
    · exact hex.in_band hinitial q hq
    · have hs := hex.leg_of_interrupted.enclosed hinitial
      exact Band.contains_iff.mpr ⟨hs.low_le_current, hs.current_le_high⟩

/-- Both trials fail at 200 Hz, and at 150 Hz the second run does not come to its end: the block of
150 Hz stops there, a call short of its length, and 120 Hz is declared again. -/
theorem run_calls_after_failed_run :
    let cause : ToolingError := .processFailed "make run" "2" ""
    let c : Session := ⟨⟨⟨100, 200⟩, 50, 2⟩, "IRQ", .empty, "sort", 10⟩
    let script : Bench.Script :=
      { rules := [{ low := some 200, runs := [.ok "IRQ a\nIRQ b"] },
          { low := some 150, runs := [.ok "", .error cause] }] }
    let l : Ledger Bench.Script.Progress := .fresh { declared := 120 }
    let l₁ := (script.bench.ask .readFrequency l).2
    let l₂ := (c.search script.bench l₁).2
    let s : State := ⟨150, 100, 200, 200, 1⟩
    c.parameters.Valid ∧ script.bench.ask .readFrequency l = (.ok 120, l₁) ∧
      c.search script.bench l₁ = ((.interrupted s cause, [⟨200, 2, 2⟩]), l₂) ∧
      ∃ calls cut met,
        (c.run script.bench l).2.calls =
          (.readFrequency, true) :: calls ++ [(.setFrequency 120, met)] ∧
        calls = metCalls (c.block 200) ++ cut ∧ CutShort (c.block 150) cut ∧
        StopsAtFailure calls := by
  intro cause c script l l₁ l₂ s
  have hp : c.parameters.Valid := by decide
  have hread : script.bench.ask .readFrequency l = (.ok 120, l₁) := rfl
  have hfound : (c.search script.bench l₁).1 = (.interrupted s cause, [⟨200, 2, 2⟩]) := by
    simp only [c, cause, script, l₁, l, s]
    rfl
  have hsearch : c.search script.bench l₁ = ((.interrupted s cause, [⟨200, 2, 2⟩]), l₂) :=
    Prod.ext hfound rfl
  obtain ⟨calls, cut, met, hcalls, heq, hleft, -, -, hstops, -⟩ := run_calls hp hread hsearch
  cases hleft with
  | interrupted hcut =>
    exact ⟨hp, hread, hsearch, calls, cut, met, hcalls, heq, hcut, hstops⟩

end SafeClock.Search.Session
