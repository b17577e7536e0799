import SafeClock.Config.Check

/-!
# Two checks of the same numbers

The parameters of a search are checked twice: with the rest of the configuration before the search
is begun, and on their own by the search. The names of the levels are written twice as well, in the
check and in the log. The copies say the same:

> **the checks agree**: a configuration is refused for a fault of its search parameters exactly if
> these are refused on their own for that fault (`check_eq_error_iff`).

That holds of several faults at once, since both checks look at the band first, then at the step,
then at the trials, and the configuration's own faults come behind these.
-/

set_option autoImplicit false

namespace SafeClock

/-- The fault of a configuration that a fault of its search parameters is. -/
def ConfigError.ofParameterError : ParameterError → ConfigError
  | .invertedBand low high => .invalidBand low high
  | .zeroStep => .invalidStep 0
  | .zeroTrials => .invalidTrials 0

namespace Config

variable {c : Config} {e : ConfigError}

theorem check_eq_ok_iff : c.check = .ok () ↔ ∀ fault ∈ c.faults, fault.1 = false := by
  unfold check
  cases hfind : c.faults.find? Prod.fst with
  | none =>
    rw [List.find?_eq_none] at hfind
    exact iff_of_true rfl fun fault h => Bool.eq_false_iff.mpr (hfind fault h)
  | some found =>
    refine iff_of_false nofun fun h => ?_
    have hfound := List.find?_some hfind
    rw [h found (List.mem_of_find?_eq_some hfind)] at hfound
    cases hfound

theorem mem_faults_of_check (h : c.check = .error e) : (true, e) ∈ c.faults := by
  unfold check at h
  cases hfind : c.faults.find? Prod.fst with
  | none =>
    rw [hfind] at h
    cases h
  | some found =>
    rw [hfind] at h
    obtain rfl := Except.error.inj h
    have hfound : found.1 = true := List.find?_some hfind
    have hmem := List.mem_of_find?_eq_some hfind
    rwa [← Prod.eta found, hfound] at hmem

/-! ## The parameters of the search -/

theorem check_of_parameters {f : ParameterError} (h : c.search.parameters.check = .error f) :
    c.check = .error (.ofParameterError f) := by
  unfold Parameters.check SearchSection.parameters at h
  unfold check faults
  by_cases hband : c.search.band.high < c.search.band.low
  · obtain rfl := by simpa [hband] using h
    simp [hband, ConfigError.ofParameterError]
  · by_cases hstep : c.search.step = 0
    · obtain rfl := by simpa [hband, hstep] using h
      simp [hband, hstep, ConfigError.ofParameterError]
    · by_cases htrials : c.search.trials = 0
      · obtain rfl := by simpa [hband, hstep, htrials] using h
        simp [hband, hstep, htrials, ConfigError.ofParameterError]
      · simp [hband, hstep, htrials] at h

/-- A configuration with a fault of its search parameters has search parameters that are refused. -/
theorem parameters_of_mem_faults {f : ParameterError}
    (h : (true, ConfigError.ofParameterError f) ∈ c.faults) :
    c.search.parameters.check ≠ .ok () := by
  rw [ne_eq, Parameters.check_eq_ok_iff]
  rintro ⟨hband, hstep, htrials⟩
  simp only [SearchSection.parameters] at hband hstep htrials
  cases f <;> simp [faults, ConfigError.ofParameterError] at h <;> omega

/-- **The checks agree.** -/
theorem check_eq_error_iff {f : ParameterError} :
    c.check = .error (.ofParameterError f) ↔ c.search.parameters.check = .error f := by
  constructor
  · intro h
    cases hp : c.search.parameters.check with
    | ok u => exact absurd hp (parameters_of_mem_faults (mem_faults_of_check h))
    | error f' =>
      -- The check of the parameters has one answer, and it is the fault that was found.
      rw [check_of_parameters hp] at h
      cases f <;> cases f' <;> simp_all [ConfigError.ofParameterError]
  · exact check_of_parameters

theorem parameters_of_check (h : c.check = .ok ()) : c.search.parameters.check = .ok () := by
  cases hp : c.search.parameters.check with
  | ok u => rfl
  | error f =>
    rw [check_of_parameters hp] at h
    cases h

theorem eq_zero_of_invalidStep {n : Nat} (h : c.check = .error (.invalidStep n)) : n = 0 := by
  have hmem := mem_faults_of_check h
  simp [faults] at hmem
  exact hmem.2.trans hmem.1

theorem eq_zero_of_invalidTrials {n : Nat} (h : c.check = .error (.invalidTrials n)) : n = 0 := by
  have hmem := mem_faults_of_check h
  simp [faults] at hmem
  exact hmem.2.trans hmem.1

/-! ## The level of the log -/

/-- The names that the check knows are those that the log knows, however letters are folded before
either of the two looks at a name. -/
theorem contains_levelNames (name : String) :
    levelNames.contains name = (Log.Level.ofSmallName? name).isSome := by
  unfold levelNames Log.Level.ofSmallName?
  split <;> simp_all

theorem level_of_check (h : c.check = .ok ()) :
    ∃ level, Log.Level.ofName? c.logging.level = some level := by
  have hmem : (!levelNames.contains (Log.Level.inSmallLetters c.logging.level),
      ConfigError.invalidLogLevel c.logging.level) ∈ c.faults := by
    simp [faults]
  rw [← Option.isSome_iff_exists, Log.Level.ofName?, ← contains_levelNames]
  simpa using check_eq_ok_iff.mp h _ hmem

theorem level_of_invalidLogLevel {name : String} (h : c.check = .error (.invalidLogLevel name)) :
    name = c.logging.level ∧ Log.Level.ofName? name = none := by
  have hmem := mem_faults_of_check h
  simp [faults] at hmem
  obtain ⟨hname, rfl⟩ := hmem
  refine ⟨rfl, ?_⟩
  rw [← Option.not_isSome_iff_eq_none, Log.Level.ofName?, ← contains_levelNames]
  simpa using hname

end Config

end SafeClock
