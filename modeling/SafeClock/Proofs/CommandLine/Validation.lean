import SafeClock.Proofs.CommandLine.Success
import SafeClock.Proofs.Config.Check
import SafeClock.Proofs.Session.Restoration

/-!
# A search that is begun has parameters it can work with

A search checks its parameters before it asks anything of the bench, although a command has checked
the whole configuration before. The second check is never the one that fails:

> **nothing is refused twice**: no command line ends in a search whose parameters make no sense
> (`execute_ne_invalidParameters`).

The options of the command are in the configuration when it is checked, so this holds whatever the
files, the environment and the options say.
-/

set_option autoImplicit false

namespace SafeClock.CommandLine

open Search (Session)

variable {σ : Type}

theorem run_ne_invalidParameters {c : Session} (hp : c.parameters.check = .ok ()) (b : Bench σ)
    (l : Ledger σ) (e : ParameterError) : (c.run b l).1 ≠ .error (.invalidParameters e) := by
  obtain ⟨xs, -, hx⟩ := c.run_transcript b l
  generalize (c.run b l).1 = result at hx ⊢
  cases hx with
  | invalid he =>
    rw [hp] at he
    cases he
  | setup => simp
  | searched => exact Session.outcome_ne_setup.1 e

theorem searchAt_ne_invalidParameters (b : Bench σ) (config : Config) (l : Ledger σ)
    (e : ParameterError) : (searchAt b config l).1 ≠ .search (.error (.invalidParameters e)) := by
  unfold searchAt
  cases hcheck : config.check with
  | error => simp
  | ok =>
    have hp := Config.parameters_of_check hcheck
    intro h
    exact run_ne_invalidParameters (c := searchSession config) hp b l e (Outcome.search.inj h)

theorem execute_command_ne_invalidParameters (command : Command) (config : Config)
    (s : Surroundings) (l : Ledger (FileTree × Unit)) (e : ParameterError) :
    (command.execute config s l).1 ≠ .search (.error (.invalidParameters e)) := by
  cases command with
  | search options =>
    rw [execute_search]
    exact searchAt_ne_invalidParameters _ _ l e
  | testbench options =>
    simp only [Command.execute]
    split <;> simp
  | validate file =>
    simp only [Command.execute]
    split <;> simp

theorem execute_ne_invalidParameters {args : List String} {s : Surroundings} {x : Execution}
    (h : execute args s = .ok x) (e : ParameterError) :
    x.outcome ≠ .search (.error (.invalidParameters e)) := by
  unfold execute at h
  cases hparse : parse (s.valueOf? "FREQPROF_CONFIG") args with
  | error => simp [hparse, Except.map] at h
  | ok i =>
    obtain rfl := by simpa [hparse, Except.map] using h
    unfold Invocation.execute
    split
    · simp
    · exact execute_command_ne_invalidParameters _ _ _ _ e

/-- **The validators agree.** A configuration with the options of a search in it is refused for its
band, its step or its trials exactly if the parameters of the search are refused on their own for
the same fault. Both know the same names of levels, however the letters were folded: one that passes
has a level the log understands, and one that is refused for its level has none. So no search that
is begun finds its parameters refused, at any bench and from any command line. -/
theorem validators_agree (options : SearchOptions) (config : Config) :
    let c := (Command.search options).apply config
    (∀ low high, c.check = .error (.invalidBand low high) ↔
      c.search.parameters.check = .error (.invertedBand low high)) ∧
    (∀ n, c.check = .error (.invalidStep n) ↔
      n = 0 ∧ c.search.parameters.check = .error .zeroStep) ∧
    (∀ n, c.check = .error (.invalidTrials n) ↔
      n = 0 ∧ c.search.parameters.check = .error .zeroTrials) ∧
    (∀ name, Config.levelNames.contains name = (Log.Level.ofSmallName? name).isSome) ∧
    (c.check = .ok () → ∃ level, Log.Level.ofName? c.logging.level = some level) ∧
    (∀ name, c.check = .error (.invalidLogLevel name) →
      name = c.logging.level ∧ Log.Level.ofName? name = none) ∧
    (∀ {σ : Type} (b : Bench σ) (l : Ledger σ) e,
      (searchAt b c l).1 ≠ .search (.error (.invalidParameters e))) ∧
    ∀ args s x e, execute args s = .ok x → x.outcome ≠ .search (.error (.invalidParameters e)) := by
  intro c
  refine ⟨fun low high => Config.check_eq_error_iff (f := .invertedBand low high), fun n => ?_,
    fun n => ?_, Config.contains_levelNames, Config.level_of_check,
    fun name => Config.level_of_invalidLogLevel, fun b l e => searchAt_ne_invalidParameters b c l e,
    fun args s x e h => execute_ne_invalidParameters h e⟩
  · constructor
    · intro h
      obtain rfl := Config.eq_zero_of_invalidStep h
      exact ⟨rfl, Config.check_eq_error_iff.mp h⟩
    · rintro ⟨rfl, h⟩
      exact Config.check_eq_error_iff.mpr h
  · constructor
    · intro h
      obtain rfl := Config.eq_zero_of_invalidTrials h
      exact ⟨rfl, Config.check_eq_error_iff.mp h⟩
    · rintro ⟨rfl, h⟩
      exact Config.check_eq_error_iff.mpr h

/-- An option that takes the step away is a fault, and it is found before the level, which is none.
With another step the level is found, by the check as by the log. -/
theorem validators_agree_on_bad_step :
    let config : Config := { logging := { level := "LOUD" } }
    let c := (Command.search { step := some 0 }).apply config
    let c' := (Command.search { step := some 7 }).apply config
    c.check = .error (.invalidStep 0) ∧ c.search.parameters.check = .error .zeroStep ∧
      c'.check = .error (.invalidLogLevel "LOUD") ∧ Log.Level.ofName? "LOUD" = none := by
  intro config c c'
  obtain ⟨-, hstep, -⟩ := validators_agree { step := some 0 } config
  obtain ⟨-, -, -, -, -, hlevel, -⟩ := validators_agree { step := some 7 } config
  have hzero : c.check = .error (.invalidStep 0) := by rfl
  have hloud : c'.check = .error (.invalidLogLevel "LOUD") := by
    simp only [c', config]
    rfl
  exact ⟨hzero, ((hstep 0).mp hzero).2, hloud, (hlevel "LOUD" hloud).2⟩

end SafeClock.CommandLine
