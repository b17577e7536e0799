import SafeClock.Proofs.Config.Leaf

/-!
# The two ways to read documents

A document that is read on its own and one that was merged from layers are read in two ways, and the
second one passes over more:

> **layers take what is taken alone**: whatever is read of a document on its own is also read of it
> in layers (`ofValue?_layered`), and of a document in which no choice is given by a number or by a
> record of several names, and nothing is listed beyond the fields of a section, both readings are
> the same (`Plain.ofValue?_eq`).
-/

set_option autoImplicit false

namespace SafeClock.Config

open Value (lookup)

variable {α : Type} {count place : Nat} {name : String} {d : Dialect} {v w : Value} {f : Fields}
  {fields : List (String × Value)} {c : Config}

/-! ## What is read alone is read in layers -/

theorem Fields.ofValue?_layered (h : Fields.ofValue? .single count v = some f) :
    Fields.ofValue? .layered count v = some f := by
  cases v with
  | list items =>
    simp only [ofValue?, true_and] at h
    split at h
    · cases h
    · exact h
  | _ => exact h

/-- What is made of the fields of a document on its own is made of them in layers. -/
theorem Fields.bind_layered {make : Fields → Option α} {a : α}
    (h : (Fields.ofValue? .single count v).bind make = some a) :
    (Fields.ofValue? .layered count v).bind make = some a := by
  obtain ⟨f, hf, ha⟩ := Option.bind_eq_some_iff.mp h
  exact Option.bind_eq_some_iff.mpr ⟨f, ofValue?_layered hf, ha⟩

theorem Fields.getD_mono {default a : α} {read read' : Value → Option α}
    (hread : ∀ v a, read v = some a → read' v = some a)
    (h : f.getD place name default read = some a) : f.getD place name default read' = some a := by
  unfold getD at h ⊢
  split at h
  · exact hread _ _ h
  · exact h

theorem readChoice?_layered {choices : List (String × α)} {a : α}
    (h : readChoice? .single choices v = some a) : readChoice? .layered choices v = some a := by
  cases v with
  | text => exact h
  | record fields =>
    match fields with
    | [(_, x)] =>
      cases x with
      | null => exact h
      | _ => simp [readChoice?] at h
    | [] | _ :: _ :: _ => simp [readChoice?] at h
  | _ => cases h

theorem readBand?_layered {b : Band} (h : readBand? .single v = some b) :
    readBand? .layered v = some b :=
  Fields.bind_layered h

theorem readSearch?_layered {s : SearchSection} (h : readSearch? .single v = some s) :
    readSearch? .layered v = some s := by
  simp only [readSearch?, bind, Option.bind_eq_some_iff] at h ⊢
  obtain ⟨f, hf, band, hband, hrest⟩ := h
  exact ⟨f, Fields.ofValue?_layered hf, band,
    Fields.getD_mono (fun _ _ => readBand?_layered) hband, hrest⟩

theorem readPlatform?_layered {s : PlatformSection} (h : readPlatform? .single v = some s) :
    readPlatform? .layered v = some s :=
  Fields.bind_layered h

theorem readToolchain?_layered {s : ToolchainSection} (h : readToolchain? .single v = some s) :
    readToolchain? .layered v = some s := by
  simp only [readToolchain?, bind, Option.bind_eq_some_iff] at h ⊢
  obtain ⟨f, hf, program, hprogram, targets, htargets, arguments, harguments, directory, hdirectory,
    source, hsource, hrest⟩ := h
  exact ⟨f, Fields.ofValue?_layered hf, program, hprogram, targets, htargets, arguments, harguments,
    directory, hdirectory, source, Fields.getD_mono (fun _ _ => readChoice?_layered) hsource, hrest⟩

theorem readTrace?_layered {s : TraceSection} (h : readTrace? .single v = some s) :
    readTrace? .layered v = some s :=
  Fields.bind_layered h

theorem readTestbench?_layered {s : TestbenchSection} (h : readTestbench? .single v = some s) :
    readTestbench? .layered v = some s :=
  Fields.bind_layered h

theorem readLogging?_layered {s : LoggingSection} (h : readLogging? .single v = some s) :
    readLogging? .layered v = some s := by
  simp only [readLogging?, bind, Option.bind_eq_some_iff] at h ⊢
  obtain ⟨f, hf, level, hlevel, format, hformat, h⟩ := h
  refine ⟨f, Fields.ofValue?_layered hf, level, hlevel, format,
    Fields.getD_mono (fun _ _ => readChoice?_layered) hformat, ?_⟩
  -- What is read after the format depends on whether the fields have names.
  cases f with
  | named | placed =>
    simp only [Option.bind_eq_some_iff] at h ⊢
    obtain ⟨directory, hdirectory, console, hconsole, rotation, hrotation, hs⟩ := h
    exact ⟨directory, hdirectory, console, hconsole, rotation,
      Fields.getD_mono (fun _ _ => readChoice?_layered) hrotation, hs⟩

/-- Whatever is read of a document on its own is also read of it in layers. -/
theorem ofValue?_layered (h : ofValue? .single v = some c) : ofValue? .layered v = some c := by
  simp only [ofValue?, bind, Option.bind_eq_some_iff] at h ⊢
  obtain ⟨f, hf, search, hsearch, platform, hplatform, toolchain, htoolchain, trace, htrace,
    testbench, htestbench, logging, hlogging, hc⟩ := h
  exact ⟨f, Fields.ofValue?_layered hf,
    search, Fields.getD_mono (fun _ _ => readSearch?_layered) hsearch,
    platform, Fields.getD_mono (fun _ _ => readPlatform?_layered) hplatform,
    toolchain, Fields.getD_mono (fun _ _ => readToolchain?_layered) htoolchain,
    trace, Fields.getD_mono (fun _ _ => readTrace?_layered) htrace,
    testbench, Fields.getD_mono (fun _ _ => readTestbench?_layered) htestbench,
    logging, Fields.getD_mono (fun _ _ => readLogging?_layered) hlogging, hc⟩

/-! ## Plain documents -/

/-- The names of the sections. -/
def sectionNames : List String :=
  ["search", "platform", "toolchain", "trace", "testbench", "logging"]

/-- The place of the band. -/
def bandPath : List String := ["search", "range"]

/-- Whether a value is a choice for all readers or for none: it is no number, and no record of
several names. -/
def plainChoice : Value → Bool
  | .int _ => false
  | .record fields => fields.length ≤ 1
  | _ => true

/-- A document in which neither reading passes over anything. -/
structure Plain (v : Value) : Prop where
  isRecord : v.isRecord = true
  sections : ∀ key ∈ sectionNames, ∀ w, v.atPath? [key] = some w → w.isRecord = true
  choices : ∀ path ∈ choicePaths, ∀ w, v.atPath? path = some w → plainChoice w = true
  band : ∀ items, v.atPath? bandPath = some (.list items) → items.length ≤ 2

theorem Reads.congr {default a : α} {read read' : Value → Option α}
    (h : ∀ v, lookup name fields = some v → read v = read' v) :
    Reads fields name default read a ↔ Reads fields name default read' a := by
  unfold Reads
  cases hv : lookup name fields with
  | none => exact Iff.rfl
  | some v =>
    show read v = some a ↔ read' v = some a
    rw [h v hv]

theorem readChoice?_of_plainChoice {choices : List (String × α)} (h : plainChoice w = true) :
    readChoice? d choices w = readChoice? .single choices w := by
  cases d with
  | single => rfl
  | layered =>
    cases w with
    | int => cases h
    | record fields =>
      match fields with
      | [] => rfl
      | [(_, x)] => cases x <;> rfl
      | _ :: _ :: _ => simp [plainChoice] at h
    | _ => rfl

theorem readBand?_of_length_le (h : ∀ items, w = .list items → items.length ≤ 2) :
    readBand? d w = readBand? .single w := by
  have hfields : Fields.ofValue? d 2 w = Fields.ofValue? .single 2 w := by
    cases w with
    | list items =>
      have hlength : ¬ 2 < items.length := Nat.not_lt.mpr (h items rfl)
      simp [Fields.ofValue?, hlength]
    | _ => rfl
  rw [readBand?, hfields]
  rfl

theorem atPath?_of_lookup {key key' : String} {inner : List (String × Value)}
    (hw : lookup key fields = some (.record inner)) (hx : lookup key' inner = some v) :
    (Value.record fields).atPath? [key, key'] = some v := by
  simp [Value.atPath?_record, hw, hx]

namespace Plain

theorem exists_record (h : Plain (.record fields)) (hname : name ∈ sectionNames)
    (hw : lookup name fields = some w) : ∃ inner, w = .record inner := by
  refine Value.isRecord_iff.mp (h.sections name hname w ?_)
  simp [Value.atPath?_record, hw]

theorem readChoice?_eq {path : List String} {choices : List (String × α)} (h : Plain v)
    (hpath : path ∈ choicePaths) (hat : v.atPath? path = some w) :
    readChoice? d choices w = readChoice? .single choices w :=
  readChoice?_of_plainChoice (h.choices path hpath w hat)

theorem readBand?_eq (h : Plain v) (hat : v.atPath? bandPath = some w) :
    readBand? d w = readBand? .single w := by
  apply readBand?_of_length_le
  rintro items rfl
  exact h.band items hat

theorem readSearch?_eq (h : Plain (.record fields)) (hw : lookup "search" fields = some w) :
    readSearch? d w = readSearch? .single w := by
  obtain ⟨inner, rfl⟩ := h.exists_record (by simp [sectionNames]) hw
  apply Option.ext
  intro s
  rw [readSearch?_record, readSearch?_record,
    Reads.congr fun x hx => h.readBand?_eq (atPath?_of_lookup hw hx)]

theorem readToolchain?_eq (h : Plain (.record fields)) (hw : lookup "toolchain" fields = some w) :
    readToolchain? d w = readToolchain? .single w := by
  obtain ⟨inner, rfl⟩ := h.exists_record (by simp [sectionNames]) hw
  apply Option.ext
  intro s
  rw [readToolchain?_record, readToolchain?_record, Reads.congr fun x hx =>
    h.readChoice?_eq (by simp [choicePaths]) (atPath?_of_lookup hw hx)]

theorem readLogging?_eq (h : Plain (.record fields)) (hw : lookup "logging" fields = some w) :
    readLogging? d w = readLogging? .single w := by
  obtain ⟨inner, rfl⟩ := h.exists_record (by simp [sectionNames]) hw
  have hformat : ∀ x, lookup "format" inner = some x →
      readChoice? d logFormats x = readChoice? .single logFormats x :=
    fun x hx => h.readChoice?_eq (by simp [choicePaths]) (atPath?_of_lookup hw hx)
  have hrotation : ∀ x, lookup "rotation" inner = some x →
      readChoice? d rotations x = readChoice? .single rotations x :=
    fun x hx => h.readChoice?_eq (by simp [choicePaths]) (atPath?_of_lookup hw hx)
  apply Option.ext
  intro s
  rw [readLogging?_record, readLogging?_record, Reads.congr hformat, Reads.congr hrotation]

/-- A plain document is read alike in both ways. -/
theorem ofValue?_eq (h : Plain v) : ofValue? d v = ofValue? .single v := by
  obtain ⟨fields, rfl⟩ := Value.isRecord_iff.mp h.isRecord
  -- The readers of three sections do not look at the way of reading once they have found a record.
  have hplatform : ∀ w, lookup "platform" fields = some w →
      readPlatform? d w = readPlatform? .single w := by
    intro w hw
    obtain ⟨inner, rfl⟩ := h.exists_record (by simp [sectionNames]) hw
    rfl
  have htrace : ∀ w, lookup "trace" fields = some w → readTrace? d w = readTrace? .single w := by
    intro w hw
    obtain ⟨inner, rfl⟩ := h.exists_record (by simp [sectionNames]) hw
    rfl
  have htestbench : ∀ w, lookup "testbench" fields = some w →
      readTestbench? d w = readTestbench? .single w := by
    intro w hw
    obtain ⟨inner, rfl⟩ := h.exists_record (by simp [sectionNames]) hw
    rfl
  apply Option.ext
  intro c
  rw [ofValue?_record, ofValue?_record, Reads.congr fun w hw => h.readSearch?_eq hw,
    Reads.congr hplatform, Reads.congr fun w hw => h.readToolchain?_eq hw, Reads.congr htrace,
    Reads.congr htestbench, Reads.congr fun w hw => h.readLogging?_eq hw]

end Plain

/-- A choice that is given by its number can only be read in layers. -/
example :
    let v : Value := .record [("logging", .record [("format", .nat 0)])]
    ofValue? .single v = none ∧ (ofValue? .layered v).map (·.logging.format) = some .json :=
  ⟨rfl, rfl⟩

end SafeClock.Config
