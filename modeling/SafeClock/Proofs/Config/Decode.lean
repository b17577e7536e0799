import SafeClock.Config.Decode
import SafeClock.Proofs.Interrupt.Relation
import SafeClock.Proofs.Value.Fields

/-!
# Sections given as records

A section that is given as a record is read field by field, and none of its fields has a say in
another one. Each reader of a section is described once, by what it takes its fields from:

> **field by field**: a record is read as a section exactly if each of its fields, or the default
> where there is none, is read as that field of the section (`ofValue?_record` and its companions
> for the sections).

A field that is given is read (`Reads.of_lookup`). That a field is given twice is no fault: the
first one counts, save in a table of transitions, where the successors of both are taken.
-/

set_option autoImplicit false

namespace SafeClock.Config

open Value (lookup)

variable {α : Type} {d : Dialect} {fields : List (String × Value)} {v : Value} {name : String}

/-- A field is read as it is given, or has its default. -/
def Reads (fields : List (String × Value)) (name : String) (default : α) (read : Value → Option α)
    (a : α) : Prop :=
  (lookup name fields).elim (some default) read = some a

/-- A field is given and read. -/
def Requires (fields : List (String × Value)) (name : String) (read : Value → Option α) (a : α) :
    Prop :=
  ∃ v, lookup name fields = some v ∧ read v = some a

theorem Reads.of_lookup {default a : α} {read : Value → Option α}
    (h : Reads fields name default read a) (hv : lookup name fields = some v) :
    read v = some a := by
  rwa [Reads, hv] at h

theorem Requires.of_lookup {a : α} {read : Value → Option α} (h : Requires fields name read a)
    (hv : lookup name fields = some v) : read v = some a := by
  obtain ⟨w, hw, ha⟩ := h
  rwa [Option.some.inj (hv.symm.trans hw)]

theorem Reads.given {default a : α} {read : Value → Option α} (hv : lookup name fields = some v)
    (h : read v = some a) : Reads fields name default read a := by
  rwa [Reads, hv]

theorem getD_named {place : Nat} {default a : α} {read : Value → Option α} :
    (Fields.named fields).getD place name default read = some a ↔
      Reads fields name default read a := by
  rw [Fields.getD, Fields.get?, Reads]
  cases lookup name fields <;> rfl

theorem require_named {place : Nat} {a : α} {read : Value → Option α} :
    (Fields.named fields).require place name read = some a ↔ Requires fields name read a := by
  rw [Fields.require, Fields.get?, Option.bind_eq_some_iff, Requires]

theorem readBand?_record {b : Band} : readBand? d (.record fields) = some b ↔
    Requires fields "low" (readNat? frequencyLimit) b.low ∧
      Requires fields "high" (readNat? frequencyLimit) b.high := by
  simp only [readBand?, Fields.ofValue?, bind, Option.bind_eq_some_iff, Option.some.injEq,
    exists_eq_left', require_named]
  constructor
  · rintro ⟨_, hlow, _, hhigh, rfl⟩
    exact ⟨hlow, hhigh⟩
  · rintro ⟨hlow, hhigh⟩
    exact ⟨_, hlow, _, hhigh, rfl⟩

theorem readSearch?_record {s : SearchSection} : readSearch? d (.record fields) = some s ↔
    Reads fields "range" ({} : SearchSection).band (readBand? d) s.band ∧
      Reads fields "step" ({} : SearchSection).step (readNat? frequencyLimit) s.step ∧
      Reads fields "measurements" ({} : SearchSection).trials (readNat? countLimit) s.trials ∧
      Reads fields "application" ({} : SearchSection).application readText? s.application ∧
      Reads fields "max_iterations" ({} : SearchSection).maxIterations (readNat? countLimit)
        s.maxIterations := by
  simp only [readSearch?, Fields.ofValue?, bind, Option.bind_eq_some_iff, Option.some.injEq,
    exists_eq_left', getD_named]
  constructor
  · rintro ⟨_, hband, _, hstep, _, htrials, _, happlication, _, hmax, rfl⟩
    exact ⟨hband, hstep, htrials, happlication, hmax⟩
  · rintro ⟨hband, hstep, htrials, happlication, hmax⟩
    exact ⟨_, hband, _, hstep, _, htrials, _, happlication, _, hmax, rfl⟩

theorem readPlatform?_record {s : PlatformSection} : readPlatform? d (.record fields) = some s ↔
    Reads fields "traits_path" ({} : PlatformSection).header readText? s.header ∧
      Reads fields "declaration_prefix" ({} : PlatformSection).lead readText? s.lead := by
  simp only [readPlatform?, Fields.ofValue?, bind, Option.bind_eq_some_iff, Option.some.injEq,
    exists_eq_left', getD_named]
  constructor
  · rintro ⟨_, hheader, _, hlead, rfl⟩
    exact ⟨hheader, hlead⟩
  · rintro ⟨hheader, hlead⟩
    exact ⟨_, hheader, _, hlead, rfl⟩

theorem readToolchain?_record {s : ToolchainSection} : readToolchain? d (.record fields) = some s ↔
    Reads fields "program" ({} : ToolchainSection).program readText? s.program ∧
      Reads fields "clean_targets" ({} : ToolchainSection).cleanTargets readTexts?
        s.cleanTargets ∧
      Reads fields "run_args" ({} : ToolchainSection).runArguments readTexts? s.runArguments ∧
      Reads fields "working_dir" ({} : ToolchainSection).workingDirectory readText?
        s.workingDirectory ∧
      Reads fields "trace_source" ({} : ToolchainSection).traceSource
        (readChoice? d traceSources) s.traceSource ∧
      Reads fields "log_path" ({} : ToolchainSection).logPath readText? s.logPath := by
  simp only [readToolchain?, Fields.ofValue?, bind, Option.bind_eq_some_iff, Option.some.injEq,
    exists_eq_left', getD_named]
  constructor
  · rintro ⟨_, hprogram, _, htargets, _, harguments, _, hdirectory, _, hsource, _, hlog, rfl⟩
    exact ⟨hprogram, htargets, harguments, hdirectory, hsource, hlog⟩
  · rintro ⟨hprogram, htargets, harguments, hdirectory, hsource, hlog⟩
    exact ⟨_, hprogram, _, htargets, _, harguments, _, hdirectory, _, hsource, _, hlog, rfl⟩

theorem readTrace?_record {s : TraceSection} : readTrace? d (.record fields) = some s ↔
    Reads fields "dispatch_prefix" ({} : TraceSection).lead readText? s.lead ∧
      Reads fields "transitions" none (readOptional? readTable?)
        s.transitions := by
  simp only [readTrace?, Fields.ofValue?, bind, Option.bind_eq_some_iff, Option.some.injEq,
    exists_eq_left', getD_named]
  constructor
  · rintro ⟨_, hlead, _, htransitions, rfl⟩
    exact ⟨hlead, htransitions⟩
  · rintro ⟨hlead, htransitions⟩
    exact ⟨_, hlead, _, htransitions, rfl⟩

theorem readTestbench?_record {s : TestbenchSection} : readTestbench? d (.record fields) = some s ↔
    Reads fields "runs" ({} : TestbenchSection).runs (readNat? countLimit) s.runs ∧
      Reads fields "application" ({} : TestbenchSection).application readText? s.application ∧
      Reads fields "failure_marker" ({} : TestbenchSection).failureMarker readText?
        s.failureMarker ∧
      Reads fields "success_marker" ({} : TestbenchSection).successMarker readText?
        s.successMarker ∧
      Reads fields "failure_output" ({} : TestbenchSection).failureOutput readText?
        s.failureOutput := by
  simp only [readTestbench?, Fields.ofValue?, bind, Option.bind_eq_some_iff, Option.some.injEq,
    exists_eq_left', getD_named]
  constructor
  · rintro ⟨_, hruns, _, happlication, _, hfailure, _, hsuccess, _, houtput, rfl⟩
    exact ⟨hruns, happlication, hfailure, hsuccess, houtput⟩
  · rintro ⟨hruns, happlication, hfailure, hsuccess, houtput⟩
    exact ⟨_, hruns, _, happlication, _, hfailure, _, hsuccess, _, houtput, rfl⟩

theorem readLogging?_record {s : LoggingSection} : readLogging? d (.record fields) = some s ↔
    Reads fields "level" ({} : LoggingSection).level readText? s.level ∧
      Reads fields "format" ({} : LoggingSection).format (readChoice? d logFormats) s.format ∧
      Reads fields "log_dir" none (readOptional? readText?) s.directory ∧
      Reads fields "enable_stdout" true readBool? s.console ∧
      Reads fields "rotation" ({} : LoggingSection).rotation (readChoice? d rotations)
        s.rotation := by
  simp only [readLogging?, Fields.ofValue?, bind, Option.bind_eq_some_iff, Option.some.injEq,
    exists_eq_left', getD_named]
  constructor
  · rintro ⟨_, hlevel, _, hformat, _, hdirectory, _, hconsole, _, hrotation, rfl⟩
    exact ⟨hlevel, hformat, hdirectory, hconsole, hrotation⟩
  · rintro ⟨hlevel, hformat, hdirectory, hconsole, hrotation⟩
    exact ⟨_, hlevel, _, hformat, _, hdirectory, _, hconsole, _, hrotation, rfl⟩

theorem ofValue?_record {c : Config} : ofValue? d (.record fields) = some c ↔
    Reads fields "search" {} (readSearch? d) c.search ∧
      Reads fields "platform" {} (readPlatform? d) c.platform ∧
      Reads fields "toolchain" {} (readToolchain? d) c.toolchain ∧
      Reads fields "trace" {} (readTrace? d) c.trace ∧
      Reads fields "testbench" {} (readTestbench? d) c.testbench ∧
      Reads fields "logging" {} (readLogging? d) c.logging := by
  simp only [ofValue?, Fields.ofValue?, bind, Option.bind_eq_some_iff, Option.some.injEq,
    exists_eq_left', getD_named]
  constructor
  · rintro ⟨_, hsearch, _, hplatform, _, htoolchain, _, htrace, _, htestbench, _, hlogging, rfl⟩
    exact ⟨hsearch, hplatform, htoolchain, htrace, htestbench, hlogging⟩
  · rintro ⟨hsearch, hplatform, htoolchain, htrace, htestbench, hlogging⟩
    exact ⟨_, hsearch, _, hplatform, _, htoolchain, _, htrace, _, htestbench, _, hlogging, rfl⟩

/-- A table has the keys of its record. -/
theorem mem_keys_of_readTable? {t : TransitionTable} (h : readTable? (.record fields) = some t)
    {e : Event} : e ∈ t.keys ↔ e ∈ fields.map Prod.fst := by
  obtain ⟨pairs, hpairs, rfl⟩ := Option.map_eq_some_iff.mp h
  rw [Value.mapM_eq_some_iff] at hpairs
  have hkeys : pairs.map Prod.fst = fields.map Prod.fst := by
    clear h
    induction fields generalizing pairs with
    | nil =>
      obtain rfl : pairs = [] := by simpa using hpairs.symm
      rfl
    | cons field rest ih =>
      cases pairs with
      | nil => cases hpairs
      | cons pair pairs =>
        obtain ⟨hfield, hrest⟩ := List.cons.inj hpairs
        obtain ⟨next, -, rfl⟩ := Option.map_eq_some_iff.mp hfield
        rw [List.map_cons, List.map_cons, ih pairs hrest]
  rw [TransitionTable.mem_keys_ofList, hkeys]

/-- A table has the keys of its record, and where no key is given twice, the successors of each
event are those that the record lists for it. -/
theorem readTable?_record {t : TransitionTable} (h : readTable? (.record fields) = some t) :
    (∀ e ∈ t.keys, ∃ v next, (e, v) ∈ fields ∧ readTexts? v = some next) ∧
      ((fields.map Prod.fst).Nodup → ∀ e v, lookup e fields = some v →
        (readTexts? v).map (fun next => (EventSet.ofList next).toList) =
          some (t.successors e)) := by
  obtain ⟨pairs, hpairs, rfl⟩ := Option.map_eq_some_iff.mp h
  rw [Value.mapM_eq_some_iff] at hpairs
  have hfield {e next} (hmem : (e, next) ∈ pairs) :
      ∃ v, (e, v) ∈ fields ∧ readTexts? v = some next := by
    obtain ⟨field, hfield, hread⟩ := List.mem_map.mp (hpairs ▸ List.mem_map_of_mem hmem)
    obtain ⟨next, hnext, heq⟩ := Option.map_eq_some_iff.mp hread
    cases heq
    exact ⟨field.2, hfield, hnext⟩
  constructor
  · intro e he
    obtain ⟨⟨_, next⟩, hmem, rfl⟩ := List.mem_map.mp (TransitionTable.mem_keys_ofList.mp he)
    obtain ⟨v, hv, hnext⟩ := hfield hmem
    exact ⟨v, next, hv, hnext⟩
  · intro hn e v hv
    obtain ⟨⟨_, next⟩, hmem, hread⟩ :=
      List.mem_map.mp (hpairs ▸ List.mem_map_of_mem (Value.mem_of_lookup hv))
    obtain ⟨_, hnext, heq⟩ := Option.map_eq_some_iff.mp hread.symm
    cases heq
    rw [hnext, TransitionTable.successors_ofList hmem]
    · rfl
    · rintro ⟨_, other⟩ hother rfl
      obtain ⟨w, hw, hread⟩ := hfield hother
      rw [Value.lookup_of_mem hn hw, Option.some.injEq] at hv
      rw [hv, hnext, Option.some.injEq] at hread
      exact hread.symm

end SafeClock.Config
