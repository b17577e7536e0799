import SafeClock.Proofs.Session.Transcript

/-!
# A session leaves the bench as it found it

A search declares one candidate after the other, and any request on the way may fail. What counts
for the board is the last request: this file reads off the transcript that it declares the frequency
of the first one, and what the result of a session says about how that went.

> **the way back**: `restore` is the answer exactly if the last write failed; every other answer to
> a search that began means that the bench declares what it declared before.

Nothing is assumed of a bench but, for the last part, that writes that are met declare
(`Bench.Declares`). Runs and cleans may do to the declaration whatever they like: the last write
undoes it.
-/

set_option autoImplicit false

namespace SafeClock.Search.Session

variable {σ : Type} {c : Session} {b : Bench σ} {l l' : Ledger σ}

/-! ## No second read -/

theorem request_ne_read_of_mem_exchanges {m : Measurement} :
    ∀ x ∈ c.exchanges m, x.request ≠ .readFrequency := by
  intro x hx
  rcases List.mem_cons.mp hx with rfl | hx
  · exact Request.noConfusion
  · obtain ⟨trace, -, hx⟩ := List.mem_flatMap.mp hx
    obtain rfl | rfl : x = ⟨.clean, .ok ()⟩ ∨ x = ⟨.run c.application, .ok trace⟩ := by
      simpa [trialExchanges] using hx
    · exact Request.noConfusion
    · exact Request.noConfusion

theorem BrokenTrial.request_ne_read {e : ToolingError} {xs : List Exchange}
    (h : c.BrokenTrial e xs) : ∀ x ∈ xs, x.request ≠ .readFrequency := by
  cases h <;> simp

theorem BrokenMeasurement.request_ne_read {hz : Nat} {e : ToolingError} {xs : List Exchange}
    (h : c.BrokenMeasurement hz e xs) : ∀ x ∈ xs, x.request ≠ .readFrequency := by
  cases h with
  | write => simp
  | trial _ hx =>
    exact List.forall_mem_append.mpr ⟨request_ne_read_of_mem_exchanges, hx.request_ne_read⟩

/-- A loop reads nothing. -/
theorem Explains.request_ne_read {s : State} {left : Nat} {ms : List Measurement} {ending : Ending}
    {cut : List Exchange} (h : c.Explains s left ms ending cut) :
    ∀ x ∈ ms.flatMap c.exchanges ++ cut, x.request ≠ .readFrequency := by
  refine List.forall_mem_append.mpr ⟨?_, ?_⟩
  · intro x hx
    obtain ⟨m, -, hx⟩ := List.mem_flatMap.mp hx
    exact request_ne_read_of_mem_exchanges x hx
  · cases h with
    | finished | outOfIterations => simp
    | interrupted _ _ hx => exact hx.request_ne_read

/-! ## The last write -/

/-- What a session can answer once its last write was met. -/
inductive Restored : Except SessionError Report → Prop
  | ok (r : Report) : Restored (.ok r)
  | aborted (hz : Nat) (e : ToolingError) (r : Report) : Restored (.error (.aborted hz e r))
  | iterationLimit (limit : Nat) : Restored (.error (.iterationLimit limit))

section outcome

variable {prior : Nat} {ending : Ending} {probes : List Probe} {restored : Except ToolingError Unit}

theorem restored_outcome_iff :
    Restored (c.outcome prior ending probes restored) ↔ restored = .ok () := by
  cases restored with
  | ok u => cases ending <;> exact ⟨fun _ => rfl, fun _ => by constructor⟩
  | error e => cases ending <;> exact ⟨nofun, nofun⟩

theorem outcome_eq_restore_iff :
    (∃ e r, c.outcome prior ending probes restored = .error (.restore prior e r)) ↔
      ∃ e, restored = .error e := by
  cases restored with
  | ok u => cases ending <;> simp [outcome, conclude]
  | error e => cases ending <;> simp [outcome, conclude]

/-- A search that began answers neither that its parameters make no sense nor that it could not
begin. -/
theorem outcome_ne_setup :
    (∀ e, c.outcome prior ending probes restored ≠ .error (.invalidParameters e)) ∧
      ∀ e, c.outcome prior ending probes restored ≠ .error (.setup e) := by
  cases ending <;> cases restored <;> simp [outcome, conclude]

/-- What the flag of the last write says about the answer. -/
theorem met_iff :
    ((Exchange.call ⟨.setFrequency prior, restored⟩).2 = false ↔
      ∃ e r, c.outcome prior ending probes restored = .error (.restore prior e r)) ∧
    ((Exchange.call ⟨.setFrequency prior, restored⟩).2 = true ↔
      Restored (c.outcome prior ending probes restored)) := by
  rw [outcome_eq_restore_iff, restored_outcome_iff]
  cases restored <;> simp [Exchange.call]

end outcome

/-- **Every way out restores.** Parameters that are turned down cost no call and a first read that
fails costs one. In every other session the first call is the only read, the last one declares what
was read, and the answer is `restore` exactly if that last call failed. At a bench where writes that
are met declare, every other answer leaves the declaration as it was. -/
theorem run_restores (c : Session) (b : Bench σ) (l : Ledger σ) :
    ∃ calls, (c.run b l).2.calls = l.calls ++ calls ∧
      (∀ e, (c.run b l).1 = .error (.invalidParameters e) → calls = []) ∧
      (∀ e, (c.run b l).1 = .error (.setup e) → calls = [(.readFrequency, false)]) ∧
      ((∀ e, (c.run b l).1 ≠ .error (.invalidParameters e)) →
        (∀ e, (c.run b l).1 ≠ .error (.setup e)) →
        ∃ prior between met, (b.ask .readFrequency l).1 = .ok prior ∧
          calls = (.readFrequency, true) :: between ++ [(.setFrequency prior, met)] ∧
          (∀ call ∈ between, call.1 ≠ .readFrequency) ∧
          (met = false ↔ ∃ e r, (c.run b l).1 = .error (.restore prior e r)) ∧
          (met = true ↔ Restored (c.run b l).1)) ∧
      (∀ declared, b.Declares declared → Restored (c.run b l).1 →
        declared (c.run b l).2.bench = declared l.bench) := by
  obtain ⟨xs, hd, hx⟩ := c.run_transcript b l
  refine ⟨_, hd.calls_eq, ?_⟩
  generalize (c.run b l).1 = result at hx ⊢
  cases hx with
  | invalid _ =>
    refine ⟨?_, ?_, ?_, ?_⟩
    · exact fun _ _ => rfl
    · exact fun _ h => absurd h (by simp)
    · exact fun h => absurd rfl (h _)
    · rintro _ _ ⟨⟩
  | setup _ =>
    refine ⟨?_, ?_, ?_, ?_⟩
    · exact fun _ h => absurd h (by simp)
    · exact fun _ _ => rfl
    · exact fun _ h => absurd rfl (h _)
    · rintro _ _ ⟨⟩
  | @searched prior ms ending cut restored _ _ hex =>
    have hread := (Bench.answers_cons_iff.mp hd.answers).1
    have hmid : ∀ call ∈ (ms.flatMap c.exchanges ++ cut).map Exchange.call,
        call.1 ≠ .readFrequency := by
      intro call hcall
      obtain ⟨x, hx, rfl⟩ := List.mem_map.mp hcall
      exact hex.request_ne_read x hx
    refine ⟨fun e h => absurd h (outcome_ne_setup.1 e), fun e h => absurd h (outcome_ne_setup.2 e),
      fun _ _ => ?_, ?_⟩
    · exact ⟨prior, _, _, hread, by simp [Exchange.call], hmid, met_iff⟩
    · exact fun declared hb hr => hd.declared_eq hb (restored_outcome_iff.mp hr)

/-- A violation at 200 Hz sends the search to 150 Hz, where the workspace cannot be cleaned. The
session is aborted with 150 Hz declared, and leaves 120 Hz behind, as it found it. -/
theorem run_restores_after_failed_clean :
    let c : Session := ⟨⟨⟨100, 200⟩, 50, 1⟩, "IRQ", .empty, "sort", 10⟩
    let cause : ToolingError := .processFailed "make clean" "1" ""
    let script : Bench.Script :=
      { rules := [{ low := some 150, runs := [.ok "IRQ a\nIRQ b"] }], cleanFaults := [(2, cause)] }
    let l : Ledger Bench.Script.Progress := .fresh { declared := 120 }
    Restored (c.run script.bench l).1 ∧ (c.run script.bench l).2.bench.declared = 120 := by
  intro c cause script l
  let report : Report := ⟨120, 150, 200, 150, .aborted, 1, c.parameters, [⟨200, 1, 1⟩]⟩
  have hres : (c.run script.bench l).1 = .error (.aborted 150 cause report) := by
    simp only [c, cause, script, l, report]
    rfl
  have hr : Restored (c.run script.bench l).1 := hres ▸ .aborted 150 cause report
  obtain ⟨calls, -, -, -, -, hkeep⟩ := run_restores c script.bench l
  exact ⟨hr, hkeep _ script.declares hr⟩

end SafeClock.Search.Session
