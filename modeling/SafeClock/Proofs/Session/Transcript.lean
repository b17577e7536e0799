import SafeClock.Proofs.Bench.Dialogue
import SafeClock.Proofs.Search.Course
import SafeClock.Search.Session

/-!
# The transcript of a session

Every function of a session puts requests to the bench and goes by the answers. This file says for
each of them what was exchanged and what its result is in terms of the traces that came back, from a
trial up to the whole session. A `Measurement` is a candidate with the traces of all its trials; a
session's transcript is the first read, the measurements, what a tool cut short, and the last write.

> **the loop is the machine**: the probes of the measurements are a `Leg` or a `Run` of the search
> from its initial state (`Explains`), and each counts the traces that its candidate left.

`run_transcript` is the statement that later files start from. Those that need the ledgers of a
session as well take it apart into its first read, its loop (`search`) and what is left after that
(`wayBack`), with `run_of_read`.
-/

set_option autoImplicit false

namespace SafeClock.Search

/-- A candidate, and the traces that all its trials left. -/
structure Measurement where
  frequency : Nat
  traces : List String

namespace Session

variable {σ : Type} {c : Session} {b : Bench σ} {l l' : Ledger σ}

/-- Whether a trace counts against the candidate it was left at. -/
def violates (c : Session) (trace : String) : Bool :=
  (Trace.check c.lead c.table trace).2.isViolation

/-- The exchanges of a trial that left a trace. -/
def trialExchanges (c : Session) (trace : String) : List Exchange :=
  [⟨.clean, .ok ()⟩, ⟨.run c.application, .ok trace⟩]

/-- The exchanges of a trial that a tool failed in, with the failure. -/
inductive BrokenTrial (c : Session) : ToolingError → List Exchange → Prop
  | clean (e : ToolingError) : BrokenTrial c e [⟨.clean, .error e⟩]
  | run (e : ToolingError) :
      BrokenTrial c e [⟨.clean, .ok ()⟩, ⟨.run c.application, .error e⟩]

/-- The exchanges of a measurement that no tool failed in. -/
def exchanges (c : Session) (m : Measurement) : List Exchange :=
  ⟨.setFrequency m.frequency, .ok ()⟩ :: m.traces.flatMap c.trialExchanges

/-- What the traces of a measurement come to. -/
def probeOf (c : Session) (m : Measurement) : Probe :=
  ⟨m.frequency, m.traces.countP c.violates, m.traces.length⟩

/-- The exchanges of a measurement that a tool failed in, with the failure. -/
inductive BrokenMeasurement (c : Session) (hz : Nat) : ToolingError → List Exchange → Prop
  | write (e : ToolingError) : BrokenMeasurement c hz e [⟨.setFrequency hz, .error e⟩]
  | trial {e : ToolingError} {traces : List String} {xs : List Exchange}
      (hlt : traces.length < c.parameters.trials) (hx : BrokenTrial c e xs) :
      BrokenMeasurement c hz e (c.exchanges ⟨hz, traces⟩ ++ xs)

/-! ## Trials -/

/-- A trial leaves a trace, which its verdict is about, or a tool fails. -/
theorem trial_cases {o : Except ToolingError Verdict} (h : c.trial b l = (o, l')) :
    (∃ trace v, o = .ok v ∧ v.isViolation = c.violates trace ∧
      Dialogue b l (c.trialExchanges trace) l') ∨
    ∃ e xs, o = .error e ∧ c.BrokenTrial e xs ∧ Dialogue b l xs l' := by
  unfold trial at h
  cases hclean : b.ask .clean l with
  | mk o₁ l₁ =>
    have hd₁ := Dialogue.of_ask hclean
    cases o₁ with
    | error e =>
      obtain ⟨rfl, rfl⟩ := by simpa [hclean] using h
      exact .inr ⟨e, _, rfl, .clean e, hd₁⟩
    | ok u =>
      cases hrun : b.ask (.run c.application) l₁ with
      | mk o₂ l₂ =>
        have hd₂ := hd₁.trans (Dialogue.of_ask hrun)
        cases o₂ with
        | error e =>
          obtain ⟨rfl, rfl⟩ := by simpa [hclean, hrun] using h
          exact .inr ⟨e, _, rfl, .run e, hd₂⟩
        | ok trace =>
          simp only [hclean, hrun] at h
          -- Both verdicts are logged, and a log record is no exchange.
          cases hv : (Trace.check c.lead c.table trace).2 with
          | correct =>
            obtain ⟨rfl, rfl⟩ := by simpa [hv] using h
            exact .inl ⟨trace, _, rfl, by rw [violates, hv], hd₂.log _ _⟩
          | violation previous next =>
            obtain ⟨rfl, rfl⟩ := by simpa [hv] using h
            exact .inl ⟨trace, _, rfl, by rw [violates, hv], hd₂.log _ _⟩

/-- The trials that are left all leave a trace, and the violations among these are counted, or a
tool fails in one of them. -/
theorem trials_cases {left errors : Nat} {o : Except ToolingError Nat}
    (h : c.trials b left errors l = (o, l')) :
    (∃ traces : List String, o = .ok (errors + traces.countP c.violates) ∧
      traces.length = left ∧ Dialogue b l (traces.flatMap c.trialExchanges) l') ∨
    ∃ (e : ToolingError) (traces : List String) (xs : List Exchange), o = .error e ∧
      traces.length < left ∧ c.BrokenTrial e xs ∧
      Dialogue b l (traces.flatMap c.trialExchanges ++ xs) l' := by
  -- A violation is counted before the trials that are left are run, so the count varies with them.
  induction left generalizing errors l with
  | zero =>
    obtain ⟨rfl, rfl⟩ := by simpa [trials] using h
    exact .inl ⟨[], by simp, rfl, .refl⟩
  | succ left ih =>
    unfold trials at h
    cases htrial : c.trial b (l.log .debug "Running measurement") with
    | mk o₁ l₁ =>
      rcases trial_cases htrial with ⟨trace, v, rfl, hv, hd₁⟩ | ⟨e, xs, rfl, hx, hd₁⟩
      · simp only [htrial, hv] at h
        rcases ih h with ⟨traces, rfl, hlen, hd₂⟩ | ⟨e, traces, xs, rfl, hlt, hx, hd₂⟩
        · refine .inl ⟨trace :: traces, ?_, by simp [hlen], hd₁.of_log.trans hd₂⟩
          rw [List.countP_cons]
          split <;> simp only [Nat.add_zero, Nat.add_assoc, Nat.add_comm 1]
        · refine .inr ⟨e, trace :: traces, xs, rfl, Nat.succ_lt_succ hlt, hx, ?_⟩
          rw [List.flatMap_cons, List.append_assoc]
          exact hd₁.of_log.trans hd₂
      · obtain ⟨rfl, rfl⟩ := by simpa [htrial] using h
        exact .inr ⟨e, [], xs, rfl, Nat.succ_pos _, hx, hd₁.of_log⟩

/-! ## Measurements -/

/-- A measurement comes to the probe of what was measured, or a tool fails. -/
theorem measure_cases {hz : Nat} {o : Except ToolingError Probe}
    (h : c.measure b hz l = (o, l')) :
    (∃ m : Measurement, o = .ok (c.probeOf m) ∧ m.frequency = hz ∧
      m.traces.length = c.parameters.trials ∧ Dialogue b l (c.exchanges m) l') ∨
    ∃ e xs, o = .error e ∧ c.BrokenMeasurement hz e xs ∧ Dialogue b l xs l' := by
  unfold measure at h
  cases hset : b.ask (.setFrequency hz) l with
  | mk o₁ l₁ =>
    have hd₁ := Dialogue.of_ask hset
    cases o₁ with
    | error e =>
      obtain ⟨rfl, rfl⟩ := by simpa [hset] using h
      exact .inr ⟨e, _, rfl, .write e, hd₁⟩
    | ok u =>
      cases htrials : c.trials b c.parameters.trials 0
          (l₁.log .debug "Frequency applied to platform") with
      | mk o₂ l₂ =>
        rcases trials_cases htrials with
          ⟨traces, rfl, hlen, hd₂⟩ | ⟨e, traces, xs, rfl, hlt, hx, hd₂⟩
        · obtain ⟨rfl, rfl⟩ := by simpa [hset, htrials] using h
          refine .inl ⟨⟨hz, traces⟩, ?_, rfl, hlen, hd₁.trans hd₂.of_log⟩
          simp [probeOf, hlen]
        · obtain ⟨rfl, rfl⟩ := by simpa [hset, htrials] using h
          exact .inr ⟨e, _, rfl, .trial hlt hx, hd₁.trans hd₂.of_log⟩

theorem measured_probeOf {s : State} {m : Measurement} (hm : m.frequency = s.current)
    (hlen : m.traces.length = c.parameters.trials) : Measured c.parameters s (c.probeOf m) :=
  ⟨hm, hlen, hlen ▸ List.countP_le_length⟩

/-! ## The loop -/

/-- How the measurements of a loop account for its ending, and for the exchanges that belong to none
of them. `left` is the number of measurements that were allowed. -/
inductive Explains (c : Session) (s : State) (left : Nat) (ms : List Measurement) :
    Ending → List Exchange → Prop
  | finished {t : Transition} {termination : Termination} (hle : ms.length ≤ left)
      (hr : Run c.parameters (Measured c.parameters) s (ms.map c.probeOf) t)
      (ht : Termination.ofTransition? c.parameters t = some termination) :
      Explains c s left ms (.finished t.state termination) []
  | interrupted {u : State} {e : ToolingError} {xs : List Exchange} (hlt : ms.length < left)
      (hl : Leg c.parameters (Measured c.parameters) s (ms.map c.probeOf) u)
      (hx : c.BrokenMeasurement u.current e xs) : Explains c s left ms (.interrupted u e) xs
  | outOfIterations {u : State} (heq : ms.length = left)
      (hl : Leg c.parameters (Measured c.parameters) s (ms.map c.probeOf) u) :
      Explains c s left ms (.outOfIterations u) []

theorem Explains.cons {s s' : State} {left : Nat} {m : Measurement} {ms : List Measurement}
    {ending : Ending} {xs : List Exchange} (hq : Measured c.parameters s (c.probeOf m))
    (ha : s.advance c.parameters (c.probeOf m) = .proceed s')
    (h : c.Explains s' left ms ending xs) : c.Explains s (left + 1) (m :: ms) ending xs := by
  cases h with
  | finished hle hr ht => exact .finished (Nat.succ_le_succ hle) (.step hq ha hr) ht
  | interrupted hlt hl hx => exact .interrupted (Nat.succ_lt_succ hlt) (.step hq ha hl) hx
  | outOfIterations heq hl => exact .outOfIterations (congrArg Nat.succ heq) (.step hq ha hl)

/-- **The loop is the machine**: whatever the bench answers, the loop measures along a leg or a run
of the search, and keeps the probes of what it measured, the last one first. -/
theorem loop_explained {left : Nat} {s : State} {probes probes' : List Probe} {ending : Ending}
    (h : c.loop b left s probes l = ((ending, probes'), l')) :
    ∃ (ms : List Measurement) (xs : List Exchange),
      Dialogue b l (ms.flatMap c.exchanges ++ xs) l' ∧
      (∀ m ∈ ms, m.traces.length = c.parameters.trials) ∧
      probes' = (ms.map c.probeOf).reverse ++ probes ∧ c.Explains s left ms ending xs := by
  induction left generalizing s probes l with
  | zero =>
    obtain ⟨⟨rfl, rfl⟩, rfl⟩ := by simpa [loop] using h
    exact ⟨[], [], Dialogue.refl.log _ _, by simp, rfl, .outOfIterations rfl .rest⟩
  | succ left ih =>
    unfold loop at h
    cases hmeasure : c.measure b s.current (l.log .info "Profiling frequency") with
    | mk o l₁ =>
      rcases measure_cases hmeasure with ⟨m, rfl, hm, hlen, hd₁⟩ | ⟨e, xs, rfl, hx, hd₁⟩
      · have hq := measured_probeOf hm hlen
        have hd₁ := (hd₁.log .info "Frequency tested").of_log
        simp only [hmeasure] at h
        cases hend : Termination.ofTransition? c.parameters
            (s.advance c.parameters (c.probeOf m)) with
        | some termination =>
          obtain ⟨⟨rfl, rfl⟩, rfl⟩ := by simpa [hend] using h
          refine ⟨[m], [], by simpa using hd₁, by simpa using hlen, rfl, ?_⟩
          have ht := Termination.isTerminal_of_ofTransition? hend
          exact .finished (Nat.succ_le_succ (Nat.zero_le _)) (.last hq rfl ht) hend
        | none =>
          -- Only here does the loop go on, and only from the state the probe led to.
          obtain ⟨s', ha⟩ := Termination.ofTransition?_eq_none_iff.mp hend
          simp only [ha, Transition.state] at h
          obtain ⟨ms, xs, hd₂, hall, rfl, hex⟩ := ih h
          refine ⟨m :: ms, xs, ?_, List.forall_mem_cons.mpr ⟨hlen, hall⟩, by simp, hex.cons hq ha⟩
          rw [List.flatMap_cons, List.append_assoc]
          exact hd₁.trans hd₂
      · obtain ⟨⟨rfl, rfl⟩, rfl⟩ := by simpa [hmeasure] using h
        exact ⟨[], xs, (hd₁.log _ _).of_log, by simp, rfl,
          .interrupted (Nat.succ_pos _) .rest hx⟩

/-! ## The session -/

/-- What a session comes to, its journal aside. -/
def outcome (c : Session) (prior : Nat) (ending : Ending) (probes : List Probe)
    (restored : Except ToolingError Unit) : Except SessionError Report :=
  (c.conclude prior ending probes restored (.fresh ())).1

theorem conclude_fst (c : Session) (prior : Nat) (ending : Ending) (probes : List Probe)
    (restored : Except ToolingError Unit) (l : Ledger σ) :
    (c.conclude prior ending probes restored l).1 = c.outcome prior ending probes restored := by
  cases ending <;> cases restored <;> rfl

/-- To conclude is to ask nothing more. -/
theorem dialogue_conclude {prior : Nat} {ending : Ending} {probes : List Probe}
    {restored : Except ToolingError Unit} {xs : List Exchange} (h : Dialogue b l xs l') :
    Dialogue b l xs (c.conclude prior ending probes restored l').2 := by
  cases ending <;> cases restored <;> first | exact h | exact h.log _ _

/-- The loop of a session that has read its prior frequency: how it ended, and the results of the
candidates it measured, in order. -/
def search (c : Session) (b : Bench σ) (l : Ledger σ) : (Ending × List Probe) × Ledger σ :=
  let ((ending, probes), l) := c.loop b c.maxIterations (State.initial c.parameters) []
    (l.log .info "Captured original platform frequency")
  ((ending, probes.reverse), l)

/-- What is left of a session after its loop. -/
def wayBack (c : Session) (b : Bench σ) (prior : Nat) (ending : Ending) (probes : List Probe)
    (l : Ledger σ) : Except SessionError Report × Ledger σ :=
  match b.ask (.setFrequency prior) l with
  | (.ok _, l) =>
    c.conclude prior ending probes (.ok ()) (l.log .info "Original frequency restored")
  | (.error e, l) =>
    c.conclude prior ending probes (.error e)
      (l.log .error "Failed to restore original frequency")

section frame

variable {prior : Nat} {ending : Ending} {probes : List Probe} {l₁ l₂ : Ledger σ}

/-- A session that gets past its first read is a search with a way back, whatever the search comes
to. -/
theorem run_of_read (hp : c.parameters.check = .ok ())
    (hread : b.ask .readFrequency l = (.ok prior, l₁))
    (hsearch : c.search b l₁ = ((ending, probes), l₂)) :
    c.run b l = c.wayBack b prior ending probes l₂ := by
  obtain ⟨⟨rfl, rfl⟩, rfl⟩ := by simpa [search] using hsearch
  rw [run, hp]
  simp only [hread]
  rfl

theorem search_explained (hsearch : c.search b l = ((ending, probes), l₁)) :
    ∃ (ms : List Measurement) (cut : List Exchange),
      Dialogue b l (ms.flatMap c.exchanges ++ cut) l₁ ∧
      (∀ m ∈ ms, m.traces.length = c.parameters.trials) ∧
      probes = ms.map c.probeOf ∧
      c.Explains (.initial c.parameters) c.maxIterations ms ending cut := by
  cases hloop : c.loop b c.maxIterations (State.initial c.parameters) []
      (l.log .info "Captured original platform frequency") with
  | mk found l' =>
    obtain ⟨⟨rfl, rfl⟩, rfl⟩ := by simpa [search, hloop] using hsearch
    obtain ⟨ms, cut, hd, hall, hprobes, hex⟩ := loop_explained hloop
    exact ⟨ms, cut, hd.of_log, hall, by simp [hprobes], hex⟩

/-- Whether the last write was met decides the result, and the journal does not. -/
theorem wayBack_fst (c : Session) (b : Bench σ) (prior : Nat) (ending : Ending)
    (probes : List Probe) (l : Ledger σ) :
    (c.wayBack b prior ending probes l).1 =
      c.outcome prior ending probes (b.ask (.setFrequency prior) l).1 := by
  unfold wayBack
  cases b.ask (.setFrequency prior) l with
  | mk restored l' => cases restored <;> exact conclude_fst ..

/-- After the loop there is one request left. -/
theorem dialogue_wayBack (c : Session) (b : Bench σ) (prior : Nat) (ending : Ending)
    (probes : List Probe) (l : Ledger σ) :
    Dialogue b l [⟨.setFrequency prior, (b.ask (.setFrequency prior) l).1⟩]
      (c.wayBack b prior ending probes l).2 := by
  unfold wayBack
  cases hwrite : b.ask (.setFrequency prior) l with
  | mk restored l' =>
    have hd := Dialogue.of_ask hwrite
    -- A write that was met and one that was not are logged differently.
    cases restored with
    | ok u => exact dialogue_conclude (hd.log _ _)
    | error e => exact dialogue_conclude (hd.log _ _)

end frame

/-- A session's result with all its exchanges: parameters that are turned down, a first read that
fails, or a search between the first read and the last write. -/
inductive Transcript (c : Session) : Except SessionError Report → List Exchange → Prop
  | invalid {e : ParameterError} (hp : c.parameters.check = .error e) :
      Transcript c (.error (.invalidParameters e)) []
  | setup {e : ToolingError} (hp : c.parameters.check = .ok ()) :
      Transcript c (.error (.setup e)) [⟨.readFrequency, .error e⟩]
  | searched {prior : Nat} {ms : List Measurement} {ending : Ending} {cut : List Exchange}
      {restored : Except ToolingError Unit} (hp : c.parameters.check = .ok ())
      (hall : ∀ m ∈ ms, m.traces.length = c.parameters.trials)
      (hex : c.Explains (.initial c.parameters) c.maxIterations ms ending cut) :
      Transcript c (c.outcome prior ending (ms.map c.probeOf) restored)
        (⟨.readFrequency, .ok prior⟩ :: (ms.flatMap c.exchanges ++ cut) ++
          [⟨.setFrequency prior, restored⟩])

/-- **Every session has a transcript.** -/
theorem run_transcript (c : Session) (b : Bench σ) (l : Ledger σ) :
    ∃ xs, Dialogue b l xs (c.run b l).2 ∧ c.Transcript (c.run b l).1 xs := by
  cases hp : c.parameters.check with
  | error e =>
    rw [run, hp]
    exact ⟨[], .refl, .invalid hp⟩
  | ok u =>
    cases hread : b.ask .readFrequency l with
    | mk o l₁ =>
      have hd₁ := Dialogue.of_ask hread
      cases o with
      | error e =>
        rw [run, hp]
        simp only [hread]
        exact ⟨_, hd₁, .setup hp⟩
      | ok prior =>
        cases hsearch : c.search b l₁ with
        | mk found l₂ =>
          obtain ⟨ending, probes⟩ := found
          obtain ⟨ms, cut, hd₂, hall, rfl, hex⟩ := search_explained hsearch
          have hd₃ := c.dialogue_wayBack b prior ending (ms.map c.probeOf) l₂
          rw [run_of_read hp hread hsearch, wayBack_fst]
          exact ⟨_, (hd₁.trans hd₂).trans hd₃, .searched hp hall hex⟩

end Session

end SafeClock.Search
