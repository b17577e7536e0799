import SafeClock.Config.Check
import SafeClock.Proofs.Testbench

/-!
# What a stress run can find

An output is a failing one by the failure marker in it, and the success marker clears it. Where the
success marker is a part of the failure marker, the one never comes without the other:

> **a marker within the other clears every run**: there is an output that fails exactly if the
> success marker does not occur in the failure marker (`exists_isFailure_iff`).

The check of a configuration does not look at the success marker. So a stress run may be asked for
that passes whatever its workload prints, and an empty success marker is enough for that.
-/

set_option autoImplicit false

namespace SafeClock

/-- A bench whose tools never fail: it cleans whenever it is asked to, and every workload it runs
comes to an end, with any output. -/
structure Bench.Dependable {σ : Type} (b : Bench σ) : Prop where
  cleans : ∀ s, (b.perform .clean s).1.outcome = .ok ()
  runs : ∀ application s, ∃ output, (b.perform (.run application) s).1.outcome = .ok output

/-- A bench at which every workload prints the same. -/
def Bench.printing (output : String) : Bench Unit where
  perform
    | .readFrequency, s => (⟨.ok 0, []⟩, s)
    | .setFrequency _, s => (⟨.ok (), []⟩, s)
    | .clean, s => (⟨.ok (), []⟩, s)
    | .run _, s => (⟨.ok output, []⟩, s)

theorem Bench.dependable_printing (output : String) : (Bench.printing output).Dependable :=
  ⟨fun _ => rfl, fun _ _ => ⟨output, rfl⟩⟩

theorem Bench.eq_of_mem_outputs_printing {output other : String} {xs : List Exchange} {s u : Unit}
    (h : (Bench.printing output).Answers s xs u) (hmem : other ∈ outputs xs) : other = output := by
  induction h with
  | nil => cases hmem
  | @cons s u r xs h ih =>
    cases r with
    | run application =>
      rcases List.mem_cons.mp hmem with heq | hmem
      · exact heq
      · exact ih hmem
    | readFrequency => exact ih hmem
    | setFrequency hz => exact ih hmem
    | clean => exact ih hmem

namespace Testbench

open Config (TestbenchSection)

variable {σ : Type} {c : TestbenchSection} {b : Bench σ} {save : Save σ} {l l₁ : Ledger σ}
  {xs : List Exchange} {result : Except Failure Report × Ledger σ} {output : String}

/-! ## Markers -/

theorem occursIn_iff {part whole : List Char} : occursIn part whole = true ↔ part <:+: whole := by
  induction whole with
  | nil => rw [occursIn, List.isEmpty_iff, List.infix_nil]
  | cons c rest ih =>
    rw [occursIn, Bool.or_eq_true, List.isPrefixOf_iff_prefix, ih, List.infix_cons_iff]

theorem isFailure_iff : isFailure c output = true ↔
    c.failureMarker.toList <:+: output.toList ∧ ¬ c.successMarker.toList <:+: output.toList := by
  rw [isFailure, Bool.and_eq_true, Bool.not_eq_true', ← Bool.not_eq_true, occursIn_iff, occursIn_iff]

/-- **A marker within the other clears every run.** -/
theorem isFailure_eq_false_of_within (h : c.successMarker.toList <:+: c.failureMarker.toList)
    (output : String) : isFailure c output = false := by
  rw [← Bool.not_eq_true, isFailure_iff]
  rintro ⟨hfailure, hsuccess⟩
  exact hsuccess (h.trans hfailure)

/-- The failure marker by itself is a failing output, if any output is. -/
theorem isFailure_failureMarker (h : ¬ c.successMarker.toList <:+: c.failureMarker.toList) :
    isFailure c c.failureMarker = true :=
  isFailure_iff.mpr ⟨List.infix_rfl, h⟩

theorem exists_isFailure_iff :
    (∃ output, isFailure c output = true) ↔ ¬ c.successMarker.toList <:+: c.failureMarker.toList := by
  constructor
  · rintro ⟨output, hfail⟩ hwithin
    rw [isFailure_eq_false_of_within hwithin] at hfail
    cases hfail
  · intro h
    exact ⟨c.failureMarker, isFailure_failureMarker h⟩

/-! ## Stress runs -/

/-- At a dependable bench, all that keeps a stress run from passing is a failing output. -/
theorem Course.eq_passed (h : Course c save l₁ xs result) (hd : Dialogue b l xs l₁)
    (hb : b.Dependable) (hnever : ∀ output, isFailure c output = false) :
    result = (.ok ⟨c.application, c.runs, c.runs, none, none⟩, l₁) := by
  cases h with
  | unclean e =>
    have hclean := (Bench.answers_cons_iff.mp hd.answers).1
    rw [hb.cleans] at hclean
    cases hclean
  | broken e =>
    obtain ⟨s, -, hlast⟩ := Bench.answers_append_iff.mp hd.answers
    have hrun := (Bench.answers_cons_iff.mp hlast).1
    obtain ⟨output, houtput⟩ := hb.runs c.application s
    rw [houtput] at hrun
    cases hrun
  | failed _ _ hfail =>
    rw [hnever] at hfail
    cases hfail
  | unkept _ _ hfail =>
    rw [hnever] at hfail
    cases hfail
  | passed => rfl

/-- A workload that prints a failing output is found out by its first run. -/
theorem passed_eq_false_of_printing (hruns : 0 < c.runs) (hfail : isFailure c output = true)
    {save : Save Unit} {l : Ledger Unit} {report : Report}
    (h : (run c (Bench.printing output) save l).1 = .ok report) : report.passed = false := by
  obtain ⟨xs, l₁, hd, hcourse⟩ := run_course c (Bench.printing output) save l
  have hrun : run c (Bench.printing output) save l =
      (.ok report, (run c (Bench.printing output) save l).2) := Prod.ext h rfl
  rw [hrun] at hcourse
  rw [← Bool.not_eq_true, hcourse.report.2]
  rintro ⟨hlen, hpassed⟩
  obtain ⟨first, hfirst⟩ := List.exists_mem_of_length_pos (hlen ▸ hruns)
  have hsame : first = output := Bench.eq_of_mem_outputs_printing hd.answers hfirst
  rw [hsame] at hfirst
  rw [hpassed output hfirst] at hfail
  cases hfail

/-- A configuration is checked without a look at its success marker. -/
theorem check_withSuccessMarker (config : Config) (marker : String) :
    { config with
      testbench := { config.testbench with successMarker := marker } }.check = config.check :=
  rfl

/-- **What a stress run can find.** There is an output that counts as failing exactly if the success
marker does not occur in the failure marker. Where it does, every stress run at a bench whose tools
never fail passes, with all its runs and whatever they print; where it does not, a stress run of at
least one run does not pass if its workload prints the failure marker. A configuration that is
accepted is still accepted with an empty success marker, and with that no output fails. -/
theorem can_fail_iff_markers_apart (c : TestbenchSection) :
    ((∃ output, isFailure c output = true) ↔
      ¬ c.successMarker.toList <:+: c.failureMarker.toList) ∧
    (c.successMarker.toList <:+: c.failureMarker.toList →
      ∀ {σ : Type} (b : Bench σ) (save : Save σ) (l : Ledger σ), b.Dependable →
        ∃ report, (run c b save l).1 = .ok report ∧ report.passed = true ∧
          report.runsCompleted = c.runs ∧ report.runsRequested = c.runs) ∧
    (¬ c.successMarker.toList <:+: c.failureMarker.toList → 0 < c.runs →
      ∀ (save : Save Unit) (l : Ledger Unit) report,
        (run c (Bench.printing c.failureMarker) save l).1 = .ok report → report.passed = false) ∧
    ∀ config : Config,
      let muted := { config with testbench := { config.testbench with successMarker := "" } }
      (config.check = .ok () → muted.check = .ok ()) ∧
        ∀ output, isFailure muted.testbench output = false := by
  refine ⟨exists_isFailure_iff, fun hwithin σ b save l hb => ?_, fun h hruns save l report => ?_,
    fun config => ⟨fun hcheck => ?_, ?_⟩⟩
  · obtain ⟨xs, l₁, hd, hcourse⟩ := run_course c b save l
    rw [hcourse.eq_passed hd hb (isFailure_eq_false_of_within hwithin)]
    exact ⟨_, rfl, rfl, rfl, rfl⟩
  · exact passed_eq_false_of_printing hruns (isFailure_failureMarker h)
  · exact (check_withSuccessMarker config "").trans hcheck
  · exact isFailure_eq_false_of_within (List.nil_infix)

/-- The success marker `C` occurs in the failure marker `IC:`, so five runs that print nothing but
the failure marker pass. With the usual markers the first of them fails. -/
theorem can_fail_iff_markers_apart_with_part :
    let c : TestbenchSection := { runs := 5, successMarker := "C" }
    let usual : TestbenchSection := { runs := 5 }
    let save : Save Unit := fun _ _ s => (.ok (), s)
    (∃ report, (run c (Bench.printing "IC:") save (.fresh ())).1 = .ok report ∧
      report.passed = true ∧ report.runsCompleted = 5) ∧
    (∃ report, (run usual (Bench.printing "IC:") save (.fresh ())).1 = .ok report ∧
      report.passed = false) ∧
    ({} : Config).check = .ok () ∧
      ({ testbench := { successMarker := "" } } : Config).check = .ok () := by
  intro c usual save
  have hwithin : c.successMarker.toList <:+: c.failureMarker.toList := ⟨['I'], [':'], by decide⟩
  have hapart : ¬ usual.successMarker.toList <:+: usual.failureMarker.toList := by
    rw [← occursIn_iff]
    decide
  obtain ⟨report, hreport, hpassed, hcompleted, -⟩ :=
    (can_fail_iff_markers_apart c).2.1 hwithin _ save (.fresh ()) (Bench.dependable_printing "IC:")
  have hfailed : (run usual (Bench.printing "IC:") save (.fresh ())).1 =
      .ok ⟨"multicore", 5, 1, some 1, some "output.txt"⟩ := by
    simp only [usual, save]
    rfl
  have hcheck : ({} : Config).check = .ok () := rfl
  refine ⟨⟨report, hreport, hpassed, hcompleted⟩, ⟨_, hfailed, ?_⟩, hcheck, ?_⟩
  · exact (can_fail_iff_markers_apart usual).2.2.1 hapart (by decide) save (.fresh ()) _ hfailed
  · exact ((can_fail_iff_markers_apart c).2.2.2 {}).1 hcheck

end Testbench

end SafeClock
