import SafeClock.CommandLine.Execute
import SafeClock.Proofs.Session.Confirmation
import SafeClock.Proofs.Session.Replay

/-!
# What a search command says of itself

An operator learns from three things how a search went: the exit status, the result that is shown,
and the warning in it. The status is decided by the error of the session, `success` by its report
and by the way back, and the warning by the word for the end alone. This file says that they agree:

> **no false success**: the exit status is zero exactly if a result is shown that calls itself a
> success (`exitStatus_run_eq_zero_iff`).

An error of the way back can come with a report of a search that converged, and such a report is
shown as well. What keeps it from being a success is `restored`; what keeps an aborted search from
being one is the word, which no session returns without an error.

The bench is a parameter here (`searchAt`), so that all of this holds whatever the platform and the
tools do. The command itself is the case of the bench that is configured (`execute_search`).
-/

set_option autoImplicit false

namespace SafeClock.CommandLine

open Search (Report Session SessionError)
open Search.Session (reported?)
open Output (SearchResult Terminal Timing)

variable {σ : Type} {c : Session} {b : Bench σ} {l : Ledger σ} {timing : Timing}
  {result : Except SessionError Report} {restored : Bool} {r : Report} {x : SearchResult}

/-- A search under a configuration, at any bench. -/
def searchAt (b : Bench σ) (config : Config) (l : Ledger σ) : Outcome × Ledger σ :=
  match config.check with
  | .error e => (.refused (.searchParameters e), l)
  | .ok _ =>
    let (result, l) := (searchSession config).run b l
    (.search result, l)

theorem execute_search (options : SearchOptions) (config : Config) (s : Surroundings)
    (l : Ledger (FileTree × Unit)) :
    (Command.search options).execute config s l =
      searchAt (bench ((Command.search options).apply config) s)
        ((Command.search options).apply config) l :=
  rfl

/-! ## What is shown -/

/-- The answers of a session that come with a report, and whether the prior frequency is declared
again. -/
inductive ReportedBy : Except SessionError Report → Bool → Report → Prop
  | ok (r : Report) : ReportedBy (.ok r) true r
  | aborted (hz : Nat) (e : ToolingError) (r : Report) :
      ReportedBy (.error (.aborted hz e r)) true r
  | restore (prior : Nat) (e : ToolingError) (r : Report) :
      ReportedBy (.error (.restore prior e r)) false r

theorem shownOfSearch_eq_some_iff :
    Outcome.shownOfSearch result = some (.search restored r) ↔ ReportedBy result restored r := by
  constructor
  · intro h
    cases result with
    | ok r =>
      obtain ⟨rfl, rfl⟩ := by simpa [Outcome.shownOfSearch] using h
      exact .ok _
    | error e =>
      cases e with
      | aborted hz cause r =>
        obtain ⟨rfl, rfl⟩ := by simpa [Outcome.shownOfSearch, SessionError.report?] using h
        exact .aborted ..
      | restore prior cause r =>
        obtain ⟨rfl, rfl⟩ := by simpa [Outcome.shownOfSearch] using h
        exact .restore ..
      | invalidParameters | setup | iterationLimit =>
        simp [Outcome.shownOfSearch, SessionError.report?] at h
  · rintro (_ | _ | _) <;> rfl

theorem exists_reportedBy_iff :
    (∃ restored, ReportedBy result restored r) ↔ reported? result = some r := by
  constructor
  · rintro ⟨_, _ | _ | _⟩ <;> rfl
  · intro h
    cases result with
    | ok r =>
      obtain rfl := Option.some.inj h
      exact ⟨true, .ok _⟩
    | error e =>
      cases e with
      | aborted hz cause r =>
        obtain rfl := Option.some.inj h
        exact ⟨true, .aborted ..⟩
      | restore prior cause r =>
        obtain rfl := Option.some.inj h
        exact ⟨false, .restore ..⟩
      | invalidParameters | setup | iterationLimit => cases h

/-- The outcome shows the result of a search. -/
def Outcome.Shows (o : Outcome) (timing : Timing) (x : SearchResult) : Prop :=
  ∃ restored r, o.shown? = some (.search restored r) ∧ x = .ofReport timing restored r

theorem shows_search_iff :
    (Outcome.search result).Shows timing x ↔
      ∃ restored r, ReportedBy result restored r ∧ x = .ofReport timing restored r := by
  simp only [Outcome.Shows, Outcome.shown?, shownOfSearch_eq_some_iff]

theorem not_shows_refused {why : Refusal} : ¬(Outcome.refused why).Shows timing x := by
  simp [Outcome.Shows, Outcome.shown?]

/-- A result that is shown is all that stands on the standard output, and the first document there
if documents are asked for. -/
theorem Outcome.Shows.output {o : Outcome} (h : o.Shows timing x) (terminal : Terminal) :
    o.output false terminal timing = x.toText terminal ++ "\n" ∧
      ∃ rest, o.output true terminal timing = Output.Json.render x.toValue ++ "\n" ++ rest := by
  obtain ⟨restored, r, hshown, rfl⟩ := h
  constructor
  · unfold Outcome.output
    rw [hshown]
    cases o.failure? <;> simp [Shown.toText]
  · unfold Outcome.output
    rw [hshown]
    exact ⟨_, rfl⟩

theorem exitStatus_search_eq_zero_iff :
    (Outcome.search result).exitStatus = 0 ↔ ∃ r, result = .ok r := by
  rw [Outcome.exitStatus_eq_zero_iff, Outcome.failure?]
  constructor
  · intro h
    cases result with
    | ok r => exact ⟨r, rfl⟩
    | error e => cases e <;> simp [Outcome.failureOfSearch] at h
  · rintro ⟨r, rfl⟩
    rfl

theorem ReportedBy.restored_iff (h : ReportedBy result restored r) :
    restored = false ↔ ∃ prior e r, result = .error (.restore prior e r) := by
  cases h <;> simp

theorem success_ofReport_iff :
    (SearchResult.ofReport timing restored r).success = true ↔
      restored = true ∧ r.termination ≠ .aborted := by
  simp [SearchResult.ofReport]

theorem isSome_warningOf_iff :
    (SearchResult.warningOf r).isSome = true ↔ r.isConfirmedSafe = false := by
  cases h : r.termination <;> simp [SearchResult.warningOf, Report.isConfirmedSafe, h]

/-! ## What it says -/

/-- What the answer of a session that began says of its loop and of its last write. -/
theorem outcome_of_reportedBy {prior : Nat} {ending : Search.Ending} {probes : List Probe}
    {met : Except ToolingError Unit}
    (h : ReportedBy (c.outcome prior ending probes met) restored r) :
    r.prior = prior ∧ r.termination = ending.termination ∧ (restored = true ↔ met = .ok ()) ∧
      (c.outcome prior ending probes met = .ok r ↔
        restored = true ∧ ∃ s t, ending = .finished s t) := by
  obtain rfl := Session.reported?_outcome (exists_reportedBy_iff.mp ⟨_, h⟩)
  refine ⟨rfl, rfl, ?_⟩
  cases ending <;> cases met <;> cases h <;>
    simp [Session.outcome, Session.conclude, Search.Ending.state, Search.Ending.termination]

/-- A session that has a report ends with the write of the frequency that it read, and the report is
returned exactly if that write was met and the search came to an end of its own. -/
theorem run_of_reportedBy (h : ReportedBy (c.run b l).1 restored r) :
    (c.run b l).2.calls.getLast? = some (.setFrequency r.prior, restored) ∧
      ((c.run b l).1 = .ok r ↔ restored = true ∧ r.termination ≠ .aborted) := by
  obtain ⟨xs, hd, hx⟩ := c.run_transcript b l
  rw [hd.calls_eq]
  generalize (c.run b l).1 = result at h hx ⊢
  cases hx with
  | invalid | setup => cases h
  | @searched prior ms ending cut met _ _ hex =>
    obtain ⟨hprior, hword, hmet, hok⟩ := outcome_of_reportedBy h
    constructor
    · have hflag : restored = (Exchange.call ⟨.setFrequency prior, met⟩).2 := by
        rw [Bool.eq_iff_iff, hmet]
        cases met <;> simp [Exchange.call]
      rw [hprior, hflag, List.map_append, ← List.append_assoc, List.map_singleton,
        List.getLast?_concat]
      rfl
    · rw [hok, hword]
      refine and_congr_right fun _ => ?_
      cases hex with
      | finished _ _ ht =>
        exact iff_of_true ⟨_, _, rfl⟩ (Search.Termination.ne_aborted_of_ofTransition? ht)
      | interrupted | outOfIterations => simp [Search.Ending.termination]

theorem exists_shows_search_iff :
    (∃ x, (Outcome.search result).Shows timing x) ↔ ∃ r, reported? result = some r := by
  constructor
  · rintro ⟨x, hx⟩
    obtain ⟨restored, r, hby, -⟩ := shows_search_iff.mp hx
    exact ⟨r, exists_reportedBy_iff.mp ⟨restored, hby⟩⟩
  · rintro ⟨r, hr⟩
    obtain ⟨restored, hby⟩ := exists_reportedBy_iff.mpr hr
    exact ⟨_, shows_search_iff.mpr ⟨restored, r, hby, rfl⟩⟩

/-- The exit status goes by the answer of a session, and the result that is shown by its report. -/
theorem exitStatus_run_eq_zero_iff (c : Session) (b : Bench σ) (l : Ledger σ) (timing : Timing) :
    (Outcome.search (c.run b l).1).exitStatus = 0 ↔
      ∃ x, (Outcome.search (c.run b l).1).Shows timing x ∧ x.success = true := by
  rw [exitStatus_search_eq_zero_iff]
  constructor
  · rintro ⟨r, hr⟩
    have hby : ReportedBy (c.run b l).1 true r := hr ▸ .ok r
    exact ⟨_, shows_search_iff.mpr ⟨_, r, hby, rfl⟩,
      success_ofReport_iff.mpr ((run_of_reportedBy hby).2.mp hr)⟩
  · rintro ⟨x, hx, hsuccess⟩
    obtain ⟨restored, r, hby, rfl⟩ := shows_search_iff.mp hx
    exact ⟨r, (run_of_reportedBy hby).2.mpr (success_ofReport_iff.mp hsuccess)⟩

/-- **A search command never claims success wrongly.** At every bench, the exit status is zero
exactly if a result is shown that calls itself a success. A result is shown exactly if the answer of
the session comes with a report, and it is printed in the form that was asked for. It says that the
frequency is not restored exactly if the answer is `restore`, and warns exactly if the report vouches
for nothing. One that calls itself a success is about a search that was not aborted, and the last
call was a write of the prior frequency that was met. -/
theorem no_false_success (timing : Timing) :
    (∀ (options : SearchOptions) (config : Config) (s : Surroundings)
      (l : Ledger (FileTree × Unit)),
      (Command.search options).execute config s l =
        searchAt (bench ((Command.search options).apply config) s)
          ((Command.search options).apply config) l) ∧
    ∀ {σ : Type} (b : Bench σ) (config : Config) (l : Ledger σ),
      let o := (searchAt b config l).1
      let calls := (searchAt b config l).2.calls
      (o.exitStatus = 0 ↔ ∃ x, o.Shows timing x ∧ x.success = true) ∧
      ((∃ x, o.Shows timing x) ↔ ∃ result r, o = .search result ∧ reported? result = some r) ∧
      ∀ x, o.Shows timing x →
        (∀ terminal, o.output false terminal timing = x.toText terminal ++ "\n" ∧
          ∃ rest, o.output true terminal timing = Output.Json.render x.toValue ++ "\n" ++ rest) ∧
        (x.restored = false ↔ ∃ prior e r, o = .search (.error (.restore prior e r))) ∧
        (x.warning.isSome = true ↔ x.report.isConfirmedSafe = false) ∧
        (x.success = true → x.report.termination ≠ .aborted ∧
          calls.getLast? = some (.setFrequency x.report.prior, true)) := by
  refine ⟨execute_search, ?_⟩
  intro σ b config l
  cases hcheck : config.check with
  | error e =>
    -- A command that is refused shows nothing and fails.
    have hat : searchAt b config l = (.refused (.searchParameters e), l) := by
      rw [searchAt, hcheck]
    rw [hat]
    refine ⟨?_, ?_, fun x hx => absurd hx not_shows_refused⟩
    · exact iff_of_false (by simp [Outcome.exitStatus, Outcome.failure?])
        fun ⟨x, hx, _⟩ => not_shows_refused hx
    · exact iff_of_false (fun ⟨x, hx⟩ => not_shows_refused hx) (by simp)
  | ok u =>
    have hat : searchAt b config l =
        (.search ((searchSession config).run b l).1, ((searchSession config).run b l).2) := by
      rw [searchAt, hcheck]
    rw [hat]
    refine ⟨exitStatus_run_eq_zero_iff _ b l timing, ?_, ?_⟩
    · rw [exists_shows_search_iff]
      simp
    · intro x hx
      refine ⟨hx.output, ?_⟩
      obtain ⟨restored, r, hby, rfl⟩ := shows_search_iff.mp hx
      refine ⟨?_, isSome_warningOf_iff, fun hsuccess => ?_⟩
      · simp only [Outcome.search.injEq]
        exact hby.restored_iff
      · obtain ⟨rfl, hword⟩ := success_ofReport_iff.mp hsuccess
        exact ⟨hword, (run_of_reportedBy hby).1⟩

/-- Everything passes up to the ceiling, but the prior frequency cannot be declared again. The report
of the search is shown, and vouches for 200 Hz; the command fails all the same. -/
theorem no_false_success_after_failed_restore :
    let cause : ToolingError := .processFailed "make" "1" ""
    let config : Config := { search := { band := ⟨100, 200⟩, step := 100, trials := 1 } }
    let script : Bench.Script := { writeFaults := [{ hz := some 120, cause := cause }] }
    let l : Ledger Bench.Script.Progress := .fresh { declared := 120 }
    let r : Report := ⟨120, 200, 200, 200, .ceilingReached, 1, config.search.parameters,
      [⟨200, 0, 1⟩]⟩
    let o := (searchAt script.bench config l).1
    r.isConfirmedSafe = true ∧ o.Shows ⟨"", "", ""⟩ (.ofReport ⟨"", "", ""⟩ false r) ∧
      o.exitStatus ≠ 0 := by
  intro cause config script l r o
  have hat : o = .search (.error (.restore 120 cause r)) := by
    simp only [o, cause, config, script, l, r]
    rfl
  have hlast : (searchAt script.bench config l).2.calls.getLast? =
      some (.setFrequency 120, false) := by
    simp only [cause, config, script, l]
    rfl
  obtain ⟨-, hall⟩ := no_false_success ⟨"", "", ""⟩
  obtain ⟨hexit, -, hshown⟩ := hall script.bench config l
  refine ⟨rfl, ⟨false, r, by rw [hat]; rfl, rfl⟩, fun hzero => ?_⟩
  obtain ⟨x, hx, hsuccess⟩ := hexit.mp hzero
  obtain ⟨-, -, -, hmet⟩ := hshown x hx
  have hwrite := (hmet hsuccess).2
  rw [hlast] at hwrite
  simp at hwrite

end SafeClock.CommandLine
