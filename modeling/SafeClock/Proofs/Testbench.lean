import SafeClock.Proofs.Bench.Dialogue
import SafeClock.Testbench

/-!
# How a stress run can go

A stress run goes by the answers of its bench, and at the end perhaps by that of a file. This file
lists the ways it can go: a `Course` says what was asked, what was answered, and what became of it.

> **every stress run takes a course** (`run_course`): it cleans first, goes on while runs pass, and
> what it keeps is the output of the first run that fails, once.

A course names the ledger after the last request. A stress run that keeps nothing leaves just that
ledger behind, and one that keeps an output leaves it with what the file made of its state.
-/

set_option autoImplicit false

namespace SafeClock

/-- The output of a workload that was run. -/
def Exchange.output? : Exchange → Option String
  | ⟨.run _, .ok output⟩ => some output
  | _ => none

/-- The outputs of the workloads that were run, in order. -/
def outputs (xs : List Exchange) : List String := xs.filterMap Exchange.output?

namespace Testbench

open Config (TestbenchSection)

variable {σ : Type} {c : TestbenchSection} {b : Bench σ} {save : Save σ} {l l₀ l₁ : Ledger σ}
  {passed : List String} {xs : List Exchange} {result : Except Failure Report × Ledger σ}

/-- The exchanges of a stress run that has cleaned the workspace and got some outputs. -/
def begun (c : TestbenchSection) (passed : List String) : List Exchange :=
  ⟨.clean, .ok ()⟩ :: passed.map fun output => ⟨.run c.application, .ok output⟩

theorem begun_concat (c : TestbenchSection) (passed : List String) (output : String) :
    begun c (passed ++ [output]) = begun c passed ++ [⟨.run c.application, .ok output⟩] := by
  simp [begun]

theorem outputs_begun (c : TestbenchSection) (passed : List String) :
    outputs (begun c passed) = passed := by
  have hmap : (passed.map fun output => (⟨.run c.application, .ok output⟩ : Exchange)).filterMap
      Exchange.output? = passed := by
    rw [List.filterMap_map]
    exact List.filterMap_some
  exact hmap

/-- The ways a stress run can go: what was exchanged, and the result with the ledger left behind.
`l₁` is the ledger after the last exchange. -/
inductive Course (c : TestbenchSection) (save : Save σ) (l₁ : Ledger σ) :
    List Exchange → Except Failure Report × Ledger σ → Prop
  /-- The workspace cannot be cleaned, and nothing is run. -/
  | unclean (e : ToolingError) : Course c save l₁ [⟨.clean, .error e⟩] (.error (.clean e), l₁)
  /-- A run cannot be carried out, after some that passed. -/
  | broken (e : ToolingError) {passed : List String} (hlt : passed.length < c.runs)
      (hpassed : ∀ output ∈ passed, isFailure c output = false) :
      Course c save l₁ (begun c passed ++ [⟨.run c.application, .error e⟩])
        (.error (.run (passed.length + 1) c.runs e), l₁)
  /-- A run fails, after some that passed, and its output is kept. -/
  | failed {passed : List String} {output : String} {s : σ} (hlt : passed.length < c.runs)
      (hpassed : ∀ output ∈ passed, isFailure c output = false)
      (hfail : isFailure c output = true)
      (hsave : save c.failureOutput output l₁.bench = (.ok (), s)) :
      Course c save l₁ (begun c passed ++ [⟨.run c.application, .ok output⟩])
        (.ok
          { application := c.application
            runsRequested := c.runs
            runsCompleted := passed.length + 1
            failedRun := some (passed.length + 1)
            outputPath := some c.failureOutput },
          { l₁ with bench := s })
  /-- A run fails, and its output cannot be kept. -/
  | unkept {passed : List String} {output : String} {e : OsError} {s : σ}
      (hlt : passed.length < c.runs) (hpassed : ∀ output ∈ passed, isFailure c output = false)
      (hfail : isFailure c output = true)
      (hsave : save c.failureOutput output l₁.bench = (.error e, s)) :
      Course c save l₁ (begun c passed ++ [⟨.run c.application, .ok output⟩])
        (.error (.save c.failureOutput e), { l₁ with bench := s })
  /-- All runs pass. -/
  | passed {passed : List String} (hlen : passed.length = c.runs)
      (hpassed : ∀ output ∈ passed, isFailure c output = false) :
      Course c save l₁ (begun c passed)
        (.ok
          { application := c.application
            runsRequested := c.runs
            runsCompleted := c.runs
            failedRun := none
            outputPath := none },
          l₁)

/-- A stress run in which all runs so far passed takes a course, whatever comes. -/
theorem runs_course {left : Nat} (hd : Dialogue b l (begun c passed) l₀)
    (hpassed : ∀ output ∈ passed, isFailure c output = false)
    (hleft : passed.length + left = c.runs) :
    ∃ xs l₁, Dialogue b l xs l₁ ∧ Course c save l₁ xs (runs c b save left passed.length l₀) := by
  -- The invariant is `hd`: what was exchanged before is a beginning without a failure.
  induction left generalizing passed l₀ with
  | zero =>
    refine ⟨_, l₀, hd, ?_⟩
    have hlen : passed.length = c.runs := hleft
    rw [runs, hlen]
    exact .passed hlen hpassed
  | succ left ih =>
    have hlt : passed.length < c.runs := by omega
    cases hask : b.ask (.run c.application) (l₀.log .info "Running test") with
    | mk o l₂ =>
      have hd₂ := hd.trans (Dialogue.of_ask hask).of_log
      rw [runs, hask]
      cases o with
      | error e => exact ⟨_, l₂, hd₂, .broken e hlt hpassed⟩
      | ok output =>
        cases hfail : isFailure c output with
        | true =>
          cases hsave : save c.failureOutput output (l₂.log .warn "Test failed").bench with
          | mk kept s =>
            refine ⟨_, l₂.log .warn "Test failed", hd₂.log _ _, ?_⟩
            simp only [hfail, if_true, hsave]
            cases kept with
            | ok u => exact .failed hlt hpassed hfail hsave
            | error e => exact .unkept hlt hpassed hfail hsave
        | false =>
          have hall : ∀ o ∈ passed ++ [output], isFailure c o = false := by
            simpa [or_imp, forall_and, hfail] using hpassed
          rw [← begun_concat] at hd₂
          have hnext := ih (hd₂.log .debug "Test passed") hall (by simp; omega)
          simpa [hfail] using hnext

/-- **Every stress run takes a course.** -/
theorem run_course (c : TestbenchSection) (b : Bench σ) (save : Save σ) (l : Ledger σ) :
    ∃ xs l₁, Dialogue b l xs l₁ ∧ Course c save l₁ xs (run c b save l) := by
  cases hask : b.ask .clean l with
  | mk o l₁ =>
    rw [run, hask]
    cases o with
    | error e => exact ⟨_, l₁, Dialogue.of_ask hask, .unclean e⟩
    | ok u =>
      have hd : Dialogue b l (begun c []) l₁ := Dialogue.of_ask hask
      exact runs_course hd (by simp) (by simp)

theorem Course.cleans_first (h : Course c save l₁ xs result) :
    ∃ cleaned rest, xs = ⟨.clean, cleaned⟩ :: rest ∧
      ∀ x ∈ rest, x.request = .run c.application := by
  cases h with
  | unclean e => exact ⟨.error e, [], rfl, by simp⟩
  | broken | failed | unkept => exact ⟨.ok (), _, rfl, by simp [or_imp, forall_and]⟩
  | passed => exact ⟨.ok (), _, rfl, by simp⟩

/-- What a report says, next to the outputs of all workloads that were run. -/
theorem Course.report {report : Report} {l' : Ledger σ} (h : Course c save l₁ xs (.ok report, l')) :
    report.runsCompleted ≤ report.runsRequested ∧
      (report.passed = true ↔ (outputs xs).length = c.runs ∧
        ∀ output ∈ outputs xs, isFailure c output = false) := by
  cases h with
  | @failed passed output _ hlt _ hfail _ =>
    have houtputs : output ∈ outputs (begun c passed ++ [⟨.run c.application, .ok output⟩]) := by
      rw [← begun_concat, outputs_begun]
      simp
    refine ⟨hlt, iff_of_false (by simp [Report.passed]) fun hall => ?_⟩
    exact absurd (hall.2 output houtputs) (by simp [hfail])
  | passed hlen hpassed =>
    rw [outputs_begun]
    exact ⟨Nat.le_refl _, iff_of_true rfl ⟨hlen, hpassed⟩⟩

/-- **A stress run stops at its first failure.** It cleans once and first and then runs the workload
and nothing else. It takes one of the courses: without a clean workspace nothing is run; a run that
cannot be carried out and a run that fails are the last ones, and only the output of one that fails
is kept. A report never counts more runs than were asked for, and says that the stress run passed
exactly if all of them were carried out and none failed. -/
theorem run_stops_at_failure (c : TestbenchSection) (b : Bench σ) (save : Save σ) (l : Ledger σ) :
    ∃ xs l₁, Dialogue b l xs l₁ ∧ Course c save l₁ xs (run c b save l) ∧
      (∃ cleaned rest, xs = ⟨.clean, cleaned⟩ :: rest ∧
        ∀ x ∈ rest, x.request = .run c.application) ∧
      ∀ report, (run c b save l).1 = .ok report →
        report.runsCompleted ≤ report.runsRequested ∧
        (report.passed = true ↔ (outputs xs).length = c.runs ∧
          ∀ output ∈ outputs xs, isFailure c output = false) := by
  obtain ⟨xs, l₁, hd, hcourse⟩ := run_course c b save l
  refine ⟨xs, l₁, hd, hcourse, hcourse.cleans_first, fun report hreport => ?_⟩
  have hrun : run c b save l = (.ok report, (run c b save l).2) := Prod.ext hreport rfl
  rw [hrun] at hcourse
  exact hcourse.report

/-- The second of five runs fails, with its output kept in a list beside the bench. The third, which
would fail too, is not carried out. -/
theorem run_stops_at_failure_at_second :
    let c : TestbenchSection := { runs := 5 }
    let script : Bench.Script :=
      { rules := [{ runs := [.ok "Hello multicore world!", .ok "IC: 7", .ok "IC: 8"] }] }
    let save : Save (Bench.Script.Progress × List (String × String)) :=
      fun path text s => (.ok (), (s.1, s.2 ++ [(path, text)]))
    let out := run c (script.bench.beside _) save (.fresh ({ declared := 0 }, []))
    let report : Report := ⟨"multicore", 5, 2, some 2, some "output.txt"⟩
    out.1 = .ok report ∧ out.2.bench.2 = [("output.txt", "IC: 7")] ∧
      out.2.calls = [(.clean, true), (.run "multicore", true), (.run "multicore", true)] ∧
      report.runsCompleted ≤ report.runsRequested := by
  intro c script save out report
  have hreport : out.1 = .ok report := by
    simp only [out, c, script, save, report]
    rfl
  have hkept : out.2.bench.2 = [("output.txt", "IC: 7")] := by
    simp only [out, c, script, save]
    rfl
  have hcalls : out.2.calls =
      [(.clean, true), (.run "multicore", true), (.run "multicore", true)] := by
    simp only [out, c, script, save]
    rfl
  obtain ⟨xs, l₁, -, -, -, hfacts⟩ :=
    run_stops_at_failure c (script.bench.beside _) save (.fresh ({ declared := 0 }, []))
  exact ⟨hreport, hkept, hcalls, (hfacts report hreport).1⟩

end Testbench

end SafeClock
