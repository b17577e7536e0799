import SafeClock.Proofs.Config.Decode

/-!
# The leaves of a configuration

A configuration is made of leaves, single numbers, texts, lists and choices, each of which is read
at a path of its own:

> **a leaf is read at its path**: what a document holds at the path of a leaf is what the
> configuration has there (`Leaf.readBy_ofValue?`), and what is written for a configuration lies at
> the paths of leaves (`exists_leaf_of_atPath?_toValue`).

The successors of an event are a leaf too, one for each event. They are those of the table that is
used, which is the timer chain where a document gives none.
-/

set_option autoImplicit false

namespace SafeClock.Config

open Value (lookup)

variable {C S α : Type} {d : Dialect} {fields : List (String × Value)} {v w : Value} {key : String}
  {path : List String}

/-- A part of a configuration that is read as one: the path it is given at, its reader, and where it
is kept. -/
structure Leaf (C : Type) where
  {Datum : Type}
  path : List String
  read : Value → Option Datum
  get : C → Datum

namespace Leaf

/-- What a reader makes of a whole value. -/
def whole (read : Value → Option α) : Leaf α := ⟨[], read, id⟩

/-- A leaf of a part that is the field of a name. -/
def under (key : String) (part : C → S) (leaf : Leaf S) : Leaf C :=
  ⟨key :: leaf.path, leaf.read, leaf.get ∘ part⟩

/-- A leaf that is the field of a name. -/
def field (key : String) (read : Value → Option α) (part : C → α) : Leaf C :=
  (whole read).under key part

/-- The leaf holds what is given at its path. -/
def ReadBy (read : Value → Option C) (leaf : Leaf C) : Prop :=
  ∀ v c w, v.Distinct → read v = some c → v.atPath? leaf.path = some w →
    leaf.read w = some (leaf.get c)

theorem readBy_whole {read : Value → Option α} : (whole read).ReadBy read := by
  intro v a w _ hread hat
  obtain rfl : v = w := by simpa [whole] using hat
  exact hread

/-- A reader of records takes a part from the field of a name, if there is such a field. -/
def Takes (read : Value → Option C) (key : String) (readPart : Value → Option S) (part : C → S) :
    Prop :=
  ∀ fields c v, read (.record fields) = some c → lookup key fields = some v →
    readPart v = some (part c)

/-- The leaves of a part are read from where the part is taken. -/
theorem ReadBy.under {read : Value → Option C} {readPart : Value → Option S} {part : C → S}
    {leaf : Leaf S} (hl : leaf.ReadBy readPart) (h : Takes read key readPart part) :
    (leaf.under key part).ReadBy read := by
  intro v c w hv hread hat
  obtain ⟨fields, x, rfl, hx, hw⟩ := Value.atPath?_cons_eq_some_iff.mp hat
  exact hl x (part c) w (hv.of_lookup hx) (h fields c x hread hx) hw

theorem readBy_map_under {read : Value → Option C} {readPart : Value → Option S} {part : C → S}
    {leaves : List (Leaf S)} (hl : ∀ leaf ∈ leaves, leaf.ReadBy readPart)
    (h : Takes read key readPart part) :
    ∀ leaf ∈ leaves.map (under key part), leaf.ReadBy read :=
  List.forall_mem_map.mpr fun leaf hleaf => (hl leaf hleaf).under h

theorem readBy_field {read : Value → Option C} {readPart : Value → Option α} {part : C → α}
    (h : Takes read key readPart part) :
    (field key readPart part).ReadBy read :=
  readBy_whole.under h

end Leaf

/-! ## The leaves of each section -/

open Leaf (field)

def bandLeaves : List (Leaf Band) :=
  [field "low" (readNat? frequencyLimit) Band.low, field "high" (readNat? frequencyLimit) Band.high]

def searchLeaves : List (Leaf SearchSection) :=
  bandLeaves.map (.under "range" SearchSection.band) ++
    [ field "step" (readNat? frequencyLimit) SearchSection.step,
      field "measurements" (readNat? countLimit) SearchSection.trials,
      field "application" readText? SearchSection.application,
      field "max_iterations" (readNat? countLimit) SearchSection.maxIterations ]

def platformLeaves : List (Leaf PlatformSection) :=
  [ field "traits_path" readText? PlatformSection.header,
    field "declaration_prefix" readText? PlatformSection.lead ]

def toolchainLeaves (d : Dialect) : List (Leaf ToolchainSection) :=
  [ field "program" readText? ToolchainSection.program,
    field "clean_targets" readTexts? ToolchainSection.cleanTargets,
    field "run_args" readTexts? ToolchainSection.runArguments,
    field "working_dir" readText? ToolchainSection.workingDirectory,
    field "trace_source" (readChoice? d traceSources) ToolchainSection.traceSource,
    field "log_path" readText? ToolchainSection.logPath ]

def traceLeaves : List (Leaf TraceSection) :=
  [field "dispatch_prefix" readText? TraceSection.lead]

def testbenchLeaves : List (Leaf TestbenchSection) :=
  [ field "runs" (readNat? countLimit) TestbenchSection.runs,
    field "application" readText? TestbenchSection.application,
    field "failure_marker" readText? TestbenchSection.failureMarker,
    field "success_marker" readText? TestbenchSection.successMarker,
    field "failure_output" readText? TestbenchSection.failureOutput ]

def loggingLeaves (d : Dialect) : List (Leaf LoggingSection) :=
  [ field "level" readText? LoggingSection.level,
    field "format" (readChoice? d logFormats) LoggingSection.format,
    field "log_dir" (readOptional? readText?) LoggingSection.directory,
    field "enable_stdout" readBool? LoggingSection.console,
    field "rotation" (readChoice? d rotations) LoggingSection.rotation ]

/-- The successors of an event. -/
def successorsLeaf (e : Event) : Leaf TransitionTable :=
  ⟨[e], fun v => (readTexts? v).map fun next => (EventSet.ofList next).toList, (·.successors e)⟩

/-- The leaves of a configuration apart from its table. -/
def fieldLeaves (d : Dialect) : List (Leaf Config) :=
  searchLeaves.map (.under "search" Config.search) ++
    platformLeaves.map (.under "platform" Config.platform) ++
    (toolchainLeaves d).map (.under "toolchain" Config.toolchain) ++
    traceLeaves.map (.under "trace" Config.trace) ++
    testbenchLeaves.map (.under "testbench" Config.testbench) ++
    (loggingLeaves d).map (.under "logging" Config.logging)

/-- The leaf of an event in the table that is used. -/
def eventLeaf (e : Event) : Leaf Config :=
  .under "trace" Config.trace (.under "transitions" TraceSection.table (successorsLeaf e))

/-- The paths of choices between names. -/
def choicePaths : List (List String) :=
  [["toolchain", "trace_source"], ["logging", "format"], ["logging", "rotation"]]

/-- A leaf of a configuration. -/
def IsLeaf (d : Dialect) (leaf : Leaf Config) : Prop :=
  leaf ∈ fieldLeaves d ∨ ∃ e, leaf = eventLeaf e

/-! ## What is read at a leaf -/

namespace Leaf

theorem readBy_bandLeaves : ∀ leaf ∈ bandLeaves, leaf.ReadBy (readBand? d) := by
  simp only [bandLeaves, List.forall_mem_cons, List.not_mem_nil, false_imp_iff, implies_true,
    and_true]
  exact ⟨readBy_field fun _ _ _ h => (readBand?_record.mp h).1.of_lookup,
    readBy_field fun _ _ _ h => (readBand?_record.mp h).2.of_lookup⟩

theorem readBy_searchLeaves : ∀ leaf ∈ searchLeaves, leaf.ReadBy (readSearch? d) := by
  refine List.forall_mem_append.mpr ⟨readBy_map_under readBy_bandLeaves fun _ _ _ h =>
    (readSearch?_record.mp h).1.of_lookup, ?_⟩
  simp only [List.forall_mem_cons, List.not_mem_nil, false_imp_iff, implies_true, and_true]
  refine ⟨readBy_field fun _ _ _ h => ?_, readBy_field fun _ _ _ h => ?_,
    readBy_field fun _ _ _ h => ?_, readBy_field fun _ _ _ h => ?_⟩
  all_goals
    obtain ⟨-, hstep, htrials, happlication, hmax⟩ := readSearch?_record.mp h
  · exact hstep.of_lookup
  · exact htrials.of_lookup
  · exact happlication.of_lookup
  · exact hmax.of_lookup

theorem readBy_platformLeaves : ∀ leaf ∈ platformLeaves, leaf.ReadBy (readPlatform? d) := by
  simp only [platformLeaves, List.forall_mem_cons, List.not_mem_nil, false_imp_iff, implies_true,
    and_true]
  exact ⟨readBy_field fun _ _ _ h => (readPlatform?_record.mp h).1.of_lookup,
    readBy_field fun _ _ _ h => (readPlatform?_record.mp h).2.of_lookup⟩

theorem readBy_toolchainLeaves : ∀ leaf ∈ toolchainLeaves d, leaf.ReadBy (readToolchain? d) := by
  simp only [toolchainLeaves, List.forall_mem_cons, List.not_mem_nil, false_imp_iff, implies_true,
    and_true]
  refine ⟨readBy_field fun _ _ _ h => ?_, readBy_field fun _ _ _ h => ?_,
    readBy_field fun _ _ _ h => ?_, readBy_field fun _ _ _ h => ?_, readBy_field fun _ _ _ h => ?_,
    readBy_field fun _ _ _ h => ?_⟩
  all_goals
    obtain ⟨hprogram, htargets, harguments, hdirectory, hsource, hlog⟩ := readToolchain?_record.mp h
  · exact hprogram.of_lookup
  · exact htargets.of_lookup
  · exact harguments.of_lookup
  · exact hdirectory.of_lookup
  · exact hsource.of_lookup
  · exact hlog.of_lookup

theorem readBy_traceLeaves : ∀ leaf ∈ traceLeaves, leaf.ReadBy (readTrace? d) :=
  List.forall_mem_singleton.mpr
    (readBy_field fun _ _ _ h => (readTrace?_record.mp h).1.of_lookup)

theorem readBy_testbenchLeaves : ∀ leaf ∈ testbenchLeaves, leaf.ReadBy (readTestbench? d) := by
  simp only [testbenchLeaves, List.forall_mem_cons, List.not_mem_nil, false_imp_iff, implies_true,
    and_true]
  refine ⟨readBy_field fun _ _ _ h => ?_, readBy_field fun _ _ _ h => ?_,
    readBy_field fun _ _ _ h => ?_, readBy_field fun _ _ _ h => ?_, readBy_field fun _ _ _ h => ?_⟩
  all_goals
    obtain ⟨hruns, happlication, hfailure, hsuccess, houtput⟩ := readTestbench?_record.mp h
  · exact hruns.of_lookup
  · exact happlication.of_lookup
  · exact hfailure.of_lookup
  · exact hsuccess.of_lookup
  · exact houtput.of_lookup

theorem readBy_loggingLeaves : ∀ leaf ∈ loggingLeaves d, leaf.ReadBy (readLogging? d) := by
  simp only [loggingLeaves, List.forall_mem_cons, List.not_mem_nil, false_imp_iff, implies_true,
    and_true]
  refine ⟨readBy_field fun _ _ _ h => ?_, readBy_field fun _ _ _ h => ?_,
    readBy_field fun _ _ _ h => ?_, readBy_field fun _ _ _ h => ?_, readBy_field fun _ _ _ h => ?_⟩
  all_goals
    obtain ⟨hlevel, hformat, hdirectory, hconsole, hrotation⟩ := readLogging?_record.mp h
  · exact hlevel.of_lookup
  · exact hformat.of_lookup
  · exact hdirectory.of_lookup
  · exact hconsole.of_lookup
  · exact hrotation.of_lookup

/-- Reads the table that is used, which is the timer chain for null. -/
def readUsed? (v : Value) : Option TransitionTable :=
  (readOptional? readTable? v).map (·.getD TransitionTable.timerChain)

theorem readBy_successorsLeaf (e : Event) : (successorsLeaf e).ReadBy readUsed? := by
  intro v t w hv hread hat
  -- A document with successors for an event has a record there, so it is not null.
  obtain ⟨fields, x, rfl, hx, hw⟩ := Value.atPath?_cons_eq_some_iff.mp hat
  obtain rfl : x = w := by simpa using hw
  obtain ⟨table, htable, rfl⟩ : ∃ table, readTable? (.record fields) = some table ∧ table = t := by
    simpa [readUsed?, readOptional?] using hread
  exact (readTable?_record htable).2 hv.nodup_keys e x hx

theorem readBy_tableLeaf (e : Event) :
    (under "transitions" TraceSection.table (successorsLeaf e)).ReadBy (readTrace? d) := by
  refine (readBy_successorsLeaf e).under fun _ s v h hv => ?_
  rw [readUsed?, (readTrace?_record.mp h).2.of_lookup hv]
  rfl

/-- A configuration has at each leaf what the document holds at the path of the leaf. -/
theorem readBy_ofValue? {leaf : Leaf Config} (h : IsLeaf d leaf) : leaf.ReadBy (ofValue? d) := by
  rcases h with h | ⟨e, rfl⟩
  · simp only [fieldLeaves, List.mem_append, or_assoc] at h
    rcases h with h | h | h | h | h | h
    · refine readBy_map_under (readBy_searchLeaves (d := d)) (fun _ _ _ h => ?_) leaf h
      exact (ofValue?_record.mp h).1.of_lookup
    · refine readBy_map_under (readBy_platformLeaves (d := d)) (fun _ _ _ h => ?_) leaf h
      exact (ofValue?_record.mp h).2.1.of_lookup
    · refine readBy_map_under readBy_toolchainLeaves (fun _ _ _ h => ?_) leaf h
      exact (ofValue?_record.mp h).2.2.1.of_lookup
    · refine readBy_map_under (readBy_traceLeaves (d := d)) (fun _ _ _ h => ?_) leaf h
      exact (ofValue?_record.mp h).2.2.2.1.of_lookup
    · refine readBy_map_under (readBy_testbenchLeaves (d := d)) (fun _ _ _ h => ?_) leaf h
      exact (ofValue?_record.mp h).2.2.2.2.1.of_lookup
    · refine readBy_map_under readBy_loggingLeaves (fun _ _ _ h => ?_) leaf h
      exact (ofValue?_record.mp h).2.2.2.2.2.of_lookup
  · refine (readBy_tableLeaf (d := d) e).under fun _ _ _ h => ?_
    exact (ofValue?_record.mp h).2.2.2.1.of_lookup

/-- Only a choice can be written as a record. -/
theorem read_record {leaf : Leaf Config} (h : IsLeaf d leaf) (hpath : leaf.path ∉ choicePaths) :
    leaf.read (.record fields) = none := by
  rcases h with h | ⟨e, rfl⟩
  · have hall : ∀ leaf ∈ fieldLeaves d,
        leaf.path ∈ choicePaths ∨ leaf.read (.record fields) = none := by
      simp [fieldLeaves, searchLeaves, bandLeaves, platformLeaves, toolchainLeaves, traceLeaves,
        testbenchLeaves, loggingLeaves, field, under, whole, choicePaths, readNat?, readText?,
        readTexts?, readBool?, readOptional?]
    exact (hall leaf h).resolve_left hpath
  · rfl

end Leaf

/-! ## The paths of leaves -/

/-- Whatever in a value is no record lies at a path of some kind. -/
def Covers (v : Value) (P : List String → Prop) : Prop :=
  ∀ path w, v.atPath? path = some w → w.isRecord = false → P path

variable {P Q : List String → Prop}

theorem Covers.mono (h : Covers v P) (hpq : ∀ path, P path → Q path) : Covers v Q :=
  fun path w hat hw => hpq path (h path w hat hw)

theorem covers_of_not_record (hv : v.isRecord = false) (hp : P []) : Covers v P := by
  rintro (- | ⟨key, path⟩) w hat hw
  · exact hp
  · rw [Value.atPath?_of_not_record hv] at hat
    cases hat

theorem covers_record (h : ∀ field ∈ fields, Covers field.2 fun path => P (field.1 :: path)) :
    Covers (.record fields) P := by
  rintro (- | ⟨key, path⟩) w hat hw
  · obtain rfl := by simpa using hat
    cases hw
  · obtain ⟨_, x, heq, hx, hat⟩ := Value.atPath?_cons_eq_some_iff.mp hat
    cases heq
    exact h (key, x) (Value.mem_of_lookup hx) path w hat hw

/-- A path of one of some leaves. -/
def PathOf (leaves : List (Leaf C)) (path : List String) : Prop :=
  ∃ leaf ∈ leaves, leaf.path = path

theorem PathOf.under {leaves : List (Leaf S)} {part : C → S} (h : PathOf leaves path) :
    PathOf (leaves.map (.under key part)) (key :: path) := by
  obtain ⟨leaf, hleaf, rfl⟩ := h
  exact ⟨_, List.mem_map_of_mem hleaf, rfl⟩

theorem pathOf_append {leaves others : List (Leaf C)} :
    PathOf (leaves ++ others) path ↔ PathOf leaves path ∨ PathOf others path := by
  simp only [PathOf, List.mem_append, or_and_right, exists_or]

@[simp]
theorem pathOf_field {read : Value → Option α} {part : C → α} {leaves : List (Leaf C)} :
    PathOf (field key read part :: leaves) path ↔ [key] = path ∨ PathOf leaves path := by
  simp [PathOf, field, Leaf.under, Leaf.whole]

theorem covers_band (b : Band) : Covers b.toValue (PathOf bandLeaves) := by
  refine covers_record ?_
  simp only [List.forall_mem_cons, List.not_mem_nil, false_imp_iff, implies_true, and_true]
  constructor <;> exact covers_of_not_record rfl (by simp [bandLeaves])

theorem covers_search (s : SearchSection) : Covers s.toValue (PathOf searchLeaves) := by
  refine covers_record ?_
  simp only [List.forall_mem_cons, List.not_mem_nil, false_imp_iff, implies_true, and_true]
  refine ⟨(covers_band s.band).mono fun path h => pathOf_append.mpr (.inl h.under), ?_, ?_, ?_, ?_⟩
  all_goals exact covers_of_not_record rfl (pathOf_append.mpr (.inr (by simp)))

theorem covers_platform (s : PlatformSection) : Covers s.toValue (PathOf platformLeaves) := by
  refine covers_record ?_
  simp only [List.forall_mem_cons, List.not_mem_nil, false_imp_iff, implies_true, and_true]
  constructor <;> exact covers_of_not_record rfl (by simp [platformLeaves])

theorem covers_toolchain (s : ToolchainSection) :
    Covers s.toValue (PathOf (toolchainLeaves d)) := by
  refine covers_record ?_
  simp only [List.forall_mem_cons, List.not_mem_nil, false_imp_iff, implies_true, and_true]
  refine ⟨?_, ?_, ?_, ?_, ?_, ?_⟩
  all_goals exact covers_of_not_record rfl (by simp [toolchainLeaves])

theorem covers_table (t : TransitionTable) : Covers t.toValue fun path => ∃ e, path = [e] := by
  refine covers_record fun field hfield => ?_
  obtain ⟨entry, -, rfl⟩ := List.mem_map.mp hfield
  exact covers_of_not_record rfl ⟨_, rfl⟩

theorem covers_trace (s : TraceSection) :
    Covers s.toValue fun path => PathOf traceLeaves path ∨ ∃ e, path = ["transitions", e] := by
  refine covers_record (List.forall_mem_cons.mpr ⟨?_, ?_⟩)
  · exact covers_of_not_record rfl (.inl (by simp [traceLeaves]))
  · cases s.transitions with
    | none => simp
    | some t =>
      refine List.forall_mem_singleton.mpr ((covers_table t).mono ?_)
      rintro _ ⟨e, rfl⟩
      exact .inr ⟨e, rfl⟩

theorem covers_testbench (s : TestbenchSection) : Covers s.toValue (PathOf testbenchLeaves) := by
  refine covers_record ?_
  simp only [List.forall_mem_cons, List.not_mem_nil, false_imp_iff, implies_true, and_true]
  refine ⟨?_, ?_, ?_, ?_, ?_⟩
  all_goals exact covers_of_not_record rfl (by simp [testbenchLeaves])

theorem covers_logging (s : LoggingSection) : Covers s.toValue (PathOf (loggingLeaves d)) := by
  have hdirectory : ((s.directory.map Value.text).getD .null).isRecord = false := by
    cases s.directory <;> rfl
  refine covers_record ?_
  simp only [List.forall_mem_cons, List.not_mem_nil, false_imp_iff, implies_true, and_true]
  refine ⟨?_, ?_, covers_of_not_record hdirectory (by simp [loggingLeaves]), ?_, ?_⟩
  all_goals exact covers_of_not_record rfl (by simp [loggingLeaves])

theorem covers_toValue (c : Config) :
    Covers c.toValue fun path => PathOf (fieldLeaves d) path ∨ ∃ e, path = (eventLeaf e).path := by
  refine covers_record ?_
  simp only [List.forall_mem_cons, List.not_mem_nil, false_imp_iff, implies_true, and_true,
    fieldLeaves, pathOf_append]
  refine ⟨(covers_search c.search).mono fun path h => ?_,
    (covers_platform c.platform).mono fun path h => ?_,
    (covers_toolchain (d := d) c.toolchain).mono fun path h => ?_,
    (covers_trace c.trace).mono fun path h => ?_,
    (covers_testbench c.testbench).mono fun path h => ?_,
    (covers_logging (d := d) c.logging).mono fun path h => ?_⟩
  · simp [h.under]
  · simp [h.under]
  · simp [h.under]
  · rcases h with h | ⟨e, rfl⟩
    · simp [h.under]
    · exact .inr ⟨e, rfl⟩
  · simp [h.under]
  · simp [h.under]

/-- What is written for a configuration lies at the paths of its leaves. -/
theorem exists_leaf_of_atPath?_toValue {c : Config} (h : c.toValue.atPath? path = some w)
    (hw : w.isRecord = false) : ∃ leaf, IsLeaf d leaf ∧ leaf.path = path := by
  rcases covers_toValue (d := d) c path w h hw with ⟨leaf, hleaf, hpath⟩ | ⟨e, rfl⟩
  · exact ⟨leaf, .inl hleaf, hpath⟩
  · exact ⟨eventLeaf e, .inr ⟨e, rfl⟩, rfl⟩

end SafeClock.Config
