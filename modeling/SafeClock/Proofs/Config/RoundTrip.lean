import SafeClock.Config.Paths
import SafeClock.Proofs.Config.Layers
import SafeClock.Proofs.Config.Decode

/-!
# Configurations that are written and read again

What is written for a configuration holds all of it, so reading loses nothing:

> **what was written reads back**: a configuration is read from what is written for it exactly if
> its numbers are words (`ofValue?_toValue_iff`), and a configuration that was ever read has no other
> numbers (`fits_of_ofValue?`).

The paths of a configuration may be of any kind. One with a path that has no text is not written at
all (`isSome_textual?_iff`), and every other one is what its texts give (`textual?_eq_some_iff`). A
configuration of texts is written and read as it is (`write?_eq_toValue`, `read?_eq_ofValue?`).

That holds of a table in which an event has no successors, which is an entry all the same, and of a
missing table, which is not written, as of a missing directory, which is written as null.
-/

set_option autoImplicit false

namespace SafeClock

/-- The ends of a band are words. -/
structure Band.Fits (b : Band) : Prop where
  low_lt : b.low < frequencyLimit
  high_lt : b.high < frequencyLimit

namespace Config

variable {α π : Type} [PathKind π] {d : Dialect} {v : Value} {c : Config} {limit n : Nat}

/-! ## Configurations made of words -/

/-- The numbers of a search are words. -/
structure SearchSection.Fits (s : SearchSection) : Prop where
  band : s.band.Fits
  step_lt : s.step < frequencyLimit
  trials_lt : s.trials < countLimit
  maxIterations_lt : s.maxIterations < countLimit

/-- The numbers of a configuration are words. No other section has numbers. -/
structure Fits (c : Config π) : Prop where
  search : c.search.Fits
  runs_lt : c.testbench.runs < countLimit

theorem lt_of_readNat? (h : readNat? limit v = some n) : n < limit := by
  cases v with
  | int i =>
    rw [readNat?, Option.ite_none_right_eq_some, Option.some.injEq] at h
    omega
  | _ => cases h

/-- What holds of the default and of everything that is read holds of a field. -/
theorem Fields.of_getD {P : α → Prop} {f : Fields} {place : Nat} {name : String} {default a : α}
    {read : Value → Option α} (hdefault : P default) (hread : ∀ v a, read v = some a → P a)
    (h : f.getD place name default read = some a) : P a := by
  unfold getD at h
  split at h
  · exact hread _ _ h
  · obtain rfl := Option.some.inj h
    exact hdefault

theorem lt_of_getD {f : Fields} {place default : Nat} {name : String} (hdefault : default < limit)
    (h : f.getD place name default (readNat? limit) = some n) : n < limit :=
  Fields.of_getD (P := (· < limit)) hdefault (fun _ _ => lt_of_readNat?) h

theorem lt_of_require {f : Fields} {place : Nat} {name : String}
    (h : f.require place name (readNat? limit) = some n) : n < limit := by
  obtain ⟨w, -, hread⟩ := Option.bind_eq_some_iff.mp h
  exact lt_of_readNat? hread

theorem fits_of_readBand? {b : Band} (h : readBand? d v = some b) : b.Fits := by
  simp only [readBand?, bind, Option.bind_eq_some_iff, Option.some.injEq] at h
  obtain ⟨f, -, low, hlow, high, hhigh, rfl⟩ := h
  exact ⟨lt_of_require hlow, lt_of_require hhigh⟩

theorem fits_of_readSearch? {s : SearchSection} (h : readSearch? d v = some s) : s.Fits := by
  simp only [readSearch?, bind, Option.bind_eq_some_iff, Option.some.injEq] at h
  obtain ⟨f, -, band, hband, step, hstep, trials, htrials, _, -, maxIterations, hmax, rfl⟩ := h
  refine ⟨?_, lt_of_getD (by decide) hstep, lt_of_getD (by decide) htrials,
    lt_of_getD (by decide) hmax⟩
  exact Fields.of_getD ⟨by decide, by decide⟩ (fun _ _ => fits_of_readBand?) hband

theorem runs_lt_of_readTestbench? {s : TestbenchSection} (h : readTestbench? d v = some s) :
    s.runs < countLimit := by
  simp only [readTestbench?, bind, Option.bind_eq_some_iff, Option.some.injEq] at h
  obtain ⟨f, -, runs, hruns, _, -, _, -, _, -, _, -, rfl⟩ := h
  exact lt_of_getD (by decide) hruns

/-- Whatever is read as a configuration, its numbers are words. -/
theorem fits_of_ofValue? (h : ofValue? d v = some c) : c.Fits := by
  simp only [ofValue?, bind, Option.bind_eq_some_iff, Option.some.injEq] at h
  obtain ⟨f, -, search, hsearch, _, -, _, -, _, -, testbench, htestbench, _, -, rfl⟩ := h
  constructor
  · refine Fields.of_getD ?_ (fun _ _ => fits_of_readSearch?) hsearch
    exact ⟨⟨by decide, by decide⟩, by decide, by decide, by decide⟩
  · refine Fields.of_getD (P := fun s : TestbenchSection => s.runs < countLimit) ?_
      (fun _ _ => runs_lt_of_readTestbench?) htestbench
    decide

/-! ## Single fields -/

theorem readNat?_nat (h : n < limit) : readNat? limit (.nat n) = some n := by
  simp [readNat?, Value.nat, h]

theorem readTexts?_ofTexts (texts : List String) : readTexts? (.ofTexts texts) = some texts := by
  rw [Value.ofTexts, readTexts?, Value.mapM_eq_some_iff, List.map_map]
  rfl

theorem readChoice?_traceSource (s : TraceSource) :
    readChoice? d traceSources (.text s.name) = some s := by
  cases s <;> rfl

theorem readChoice?_logFormat (x : LogFormat) : readChoice? d logFormats (.text x.name) = some x := by
  cases x <;> rfl

theorem readChoice?_rotation (x : Rotation) : readChoice? d rotations (.text x.name) = some x := by
  cases x <;> rfl

theorem readTable?_toValue (t : TransitionTable) : readTable? t.toValue = some t := by
  have hvalue : t.toValue =
      .record (t.entries.map fun entry => (entry.1, Value.ofTexts entry.2.toList)) := rfl
  have hpairs : (t.entries.map fun entry => (entry.1, Value.ofTexts entry.2.toList)).mapM
      (fun field => (readTexts? field.2).map fun next => (field.1, next)) =
        some (t.entries.map fun entry => (entry.1, entry.2.toList)) := by
    rw [Value.mapM_eq_some_iff, List.map_map, List.map_map]
    apply List.map_congr_left
    intro entry _
    simp only [Function.comp_apply, readTexts?_ofTexts]
    rfl
  rw [hvalue, readTable?, hpairs, Option.map_some, TransitionTable.ofList_entries]

/-! ## Sections -/

theorem readBand?_toValue {b : Band} (h : b.Fits) : readBand? d b.toValue = some b :=
  readBand?_record.mpr ⟨⟨_, rfl, readNat?_nat h.low_lt⟩, ⟨_, rfl, readNat?_nat h.high_lt⟩⟩

theorem readSearch?_toValue {s : SearchSection} (h : s.Fits) : readSearch? d s.toValue = some s :=
  readSearch?_record.mpr
    ⟨.given rfl (readBand?_toValue h.band), .given rfl (readNat?_nat h.step_lt),
      .given rfl (readNat?_nat h.trials_lt), .given rfl rfl,
      .given rfl (readNat?_nat h.maxIterations_lt)⟩

theorem readPlatform?_toValue (s : PlatformSection) : readPlatform? d s.toValue = some s :=
  readPlatform?_record.mpr ⟨.given rfl rfl, .given rfl rfl⟩

theorem readToolchain?_toValue (s : ToolchainSection) : readToolchain? d s.toValue = some s :=
  readToolchain?_record.mpr
    ⟨.given rfl rfl, .given rfl (readTexts?_ofTexts _), .given rfl (readTexts?_ofTexts _),
      .given rfl rfl, .given rfl (readChoice?_traceSource _), .given rfl rfl⟩

theorem readTrace?_toValue (s : TraceSection) : readTrace? d s.toValue = some s := by
  obtain ⟨lead, transitions⟩ := s
  refine readTrace?_record.mpr ⟨.given rfl rfl, ?_⟩
  cases transitions with
  | none => rfl
  | some t =>
    have ht : readOptional? readTable? t.toValue = some (some t) :=
      congrArg (Option.map some) (readTable?_toValue t)
    exact .given rfl ht

theorem readTestbench?_toValue {s : TestbenchSection} (h : s.runs < countLimit) :
    readTestbench? d s.toValue = some s :=
  readTestbench?_record.mpr
    ⟨.given rfl (readNat?_nat h), .given rfl rfl, .given rfl rfl, .given rfl rfl, .given rfl rfl⟩

theorem readLogging?_toValue (s : LoggingSection) : readLogging? d s.toValue = some s := by
  have hdirectory : readOptional? readText? ((s.directory.map Value.text).getD .null) =
      some s.directory := by
    cases s.directory <;> rfl
  exact readLogging?_record.mpr
    ⟨.given rfl rfl, .given rfl (readChoice?_logFormat _), .given rfl hdirectory, .given rfl rfl,
      .given rfl (readChoice?_rotation _)⟩

/-! ## Configurations -/

theorem ofValue?_toValue (h : c.Fits) : ofValue? d c.toValue = some c :=
  ofValue?_record.mpr
    ⟨.given rfl (readSearch?_toValue h.search), .given rfl (readPlatform?_toValue _),
      .given rfl (readToolchain?_toValue _), .given rfl (readTrace?_toValue _),
      .given rfl (readTestbench?_toValue h.runs_lt), .given rfl (readLogging?_toValue _)⟩

theorem ofValue?_toValue_iff : ofValue? d c.toValue = some c ↔ c.Fits :=
  ⟨fits_of_ofValue?, ofValue?_toValue⟩

/-! ## Paths of any kind -/

/-- A configuration has the texts of the one that it is made of, and of no other. -/
theorem textual?_eq_some_iff {s : Config π} : s.textual? = some c ↔ s = ofTextual c := by
  simp only [textual?, bind, Option.bind_eq_some_iff, PathKind.text?_eq_some_iff,
    PathKind.optionalText?_eq_some_iff]
  constructor
  · rintro ⟨header, hheader, working, hworking, output, houtput, directory, hdirectory, h⟩
    obtain rfl := Option.some.inj h
    simp only [ofTextual, ← hheader, ← hworking, ← houtput, ← hdirectory]
  · rintro rfl
    exact ⟨_, rfl, _, rfl, _, rfl, _, rfl, rfl⟩

/-- A configuration has texts exactly if each of its paths has one. -/
theorem isSome_textual?_iff {s : Config π} :
    s.textual?.isSome = true ↔ ∀ path ∈ s.paths, (PathKind.text? path).isSome = true := by
  constructor
  · intro h path hpath
    obtain ⟨c, hc⟩ := Option.isSome_iff_exists.mp h
    obtain rfl := textual?_eq_some_iff.mp hc
    obtain ⟨text, -, rfl⟩ : ∃ text ∈ c.paths, PathKind.ofText text = path := by
      simpa [paths, ofTextual, eq_comm] using hpath
    rw [PathKind.text?_ofText]
    rfl
  · intro h
    obtain ⟨header, hheader⟩ := Option.isSome_iff_exists.mp (h s.platform.header (by simp [paths]))
    obtain ⟨working, hworking⟩ :=
      Option.isSome_iff_exists.mp (h s.toolchain.workingDirectory (by simp [paths]))
    obtain ⟨output, houtput⟩ :=
      Option.isSome_iff_exists.mp (h s.testbench.failureOutput (by simp [paths]))
    have hlog : (PathKind.optionalText? s.logging.directory).isSome = true :=
      PathKind.isSome_optionalText?_iff.mpr fun path hpath =>
        h path (by simp [paths, Option.mem_def.mp hpath])
    obtain ⟨directory, hdirectory⟩ := Option.isSome_iff_exists.mp hlog
    simp [textual?, hheader, hworking, houtput, hdirectory]

theorem fits_ofTextual : (ofTextual c : Config π).Fits ↔ c.Fits :=
  ⟨fun h => ⟨h.search, h.runs_lt⟩, fun h => ⟨h.search, h.runs_lt⟩⟩

theorem write?_eq_some_iff {s : Config π} :
    s.write? = some v ↔ ∃ c : Config, s = ofTextual c ∧ c.toValue = v := by
  simp only [write?, Option.map_eq_some_iff, textual?_eq_some_iff]

theorem read?_eq_some_iff {s : Config π} :
    read? d v = some s ↔ ∃ c, ofValue? d v = some c ∧ ofTextual c = s :=
  Option.map_eq_some_iff

/-- Texts are their own paths. -/
theorem ofTextual_eq : (ofTextual c : Config) = c := by
  have hdirectory : c.logging.directory.map PathKind.ofText = c.logging.directory :=
    Option.map_id'
  simp only [ofTextual, hdirectory]
  rfl

theorem write?_eq_toValue : c.write? = some c.toValue :=
  write?_eq_some_iff.mpr ⟨c, ofTextual_eq.symm, rfl⟩

theorem read?_eq_ofValue? : read? d v = ofValue? d v := by
  rw [read?, funext fun c => ofTextual_eq (c := c), Option.map_id']

end Config

end SafeClock
