import SafeClock.Proofs.Config.Dialect
import SafeClock.Proofs.Config.RoundTrip

/-!
# Defaults below a document and beside it

What a document leaves out gets its default in one of two ways: the reader puts it in, or it lies in
a layer below the document, which is the empty configuration as it is written. Most defaults are
named once, by the section they belong to, and the reader puts in the very value that the layer is
written from. Three fields have a default of the reader's own (`transitions`, `log_dir` and
`enable_stdout`), which could differ from the section's and be noticed by no document that gives the
field. And every default of the layer has to get past its own reader, which the reader's has not.

> **the defaults coincide**: a document is read over the layer of defaults as it is read by itself
> (`ofValue?_merge`), and a file that can be read on its own is loaded as what it is
> (`load_of_file_alone`).

Only the ends of a band have no default that a reader knows of: where one of them is left out, it
still lies in the layer.
-/

set_option autoImplicit false

namespace SafeClock.Config

open Value (lookup put mergeFields)

variable {α : Type} {d : Dialect} {under upper : List (String × Value)} {v w : Value}
  {name : String}

/-- If there is a record at a path, it has both ends of a band. -/
def BothEnds (path : List String) (v : Value) : Prop :=
  ∀ fields, v.atPath? path = some (.record fields) →
    ∀ key ∈ ["low", "high"], (lookup key fields).isSome = true

theorem BothEnds.of_lookup {path : List String} (h : BothEnds (name :: path) (.record upper))
    (hw : lookup name upper = some w) : BothEnds path w := by
  intro fields hat
  apply h fields
  rw [Value.atPath?_record, hw]
  exact hat

/-! ## A field put over its default -/

/-- Fields put over others are read as they are, if what lies below them is read as the default and
has no say in how they are read. -/
theorem reads_mergeFields {default a : α} {read : Value → Option α}
    (hn : (upper.map Prod.fst).Nodup) (hdefault : Reads under name default read default)
    (h : ∀ v, lookup name upper = some v → read (put (lookup name under) v) = read v) :
    Reads (mergeFields under upper) name default read a ↔ Reads upper name default read a := by
  unfold Reads at hdefault ⊢
  rw [Value.lookup_mergeFields hn]
  cases hv : lookup name upper with
  | none =>
    -- The default is read off the lower layer on one side and put in by the reader on the other.
    rw [Option.map_none, Option.none_or, hdefault]
    rfl
  | some v =>
    rw [Option.map_some, Option.some_or]
    show read (put (lookup name under) v) = some a ↔ read v = some a
    rw [h v hv]

/-- Nothing is merged where no record lies below. -/
theorem put_lookup (h : (lookup name under).any Value.isRecord = false) :
    put (lookup name under) v = v := by
  apply Value.put_of_not_record
  intro _ u hu
  rwa [hu] at h

theorem reads_mergeFields_leaf {default a : α} {read : Value → Option α}
    (hn : (upper.map Prod.fst).Nodup) (hdefault : Reads under name default read default)
    (hleaf : (lookup name under).any Value.isRecord = false) :
    Reads (mergeFields under upper) name default read a ↔ Reads upper name default read a := by
  apply reads_mergeFields hn hdefault
  intro v _
  rw [put_lookup hleaf]

theorem requires_mergeFields_leaf {a : α} {read : Value → Option α}
    (hn : (upper.map Prod.fst).Nodup) (hleaf : (lookup name under).any Value.isRecord = false)
    (h : (lookup name upper).isSome = true) :
    Requires (mergeFields under upper) name read a ↔ Requires upper name read a := by
  obtain ⟨v, hv⟩ := Option.isSome_iff_exists.mp h
  rw [Requires, Requires, Value.lookup_mergeFields hn, hv, Option.map_some, Option.some_or,
    put_lookup hleaf]

/-- What is put over a record is read as it is, if the fields of a record are. -/
theorem read_merge {read : Value → Option α} (hw : w.Distinct)
    (h : ∀ upper a, w = .record upper → (upper.map Prod.fst).Nodup →
      (read (.record (mergeFields under upper)) = some a ↔ read (.record upper) = some a)) :
    read ((Value.record under).merge w) = read w := by
  cases hrecord : w.isRecord with
  | false => rw [Value.merge_of_not_record (.inr hrecord)]
  | true =>
    obtain ⟨upper, rfl⟩ := Value.isRecord_iff.mp hrecord
    apply Option.ext
    intro a
    rw [Value.merge]
    exact h upper a rfl hw.nodup_keys

/-! ## Sections put over their defaults -/

theorem readBand?_merge {b : Band} (hw : w.Distinct) (hends : BothEnds [] w) :
    readBand? d (b.toValue.merge w) = readBand? d w := by
  apply read_merge hw
  rintro upper x rfl hn
  have hends := hends upper Value.atPath?_nil
  rw [readBand?_record, readBand?_record,
    requires_mergeFields_leaf hn rfl (hends "low" (by simp)),
    requires_mergeFields_leaf hn rfl (hends "high" (by simp))]

theorem readSearch?_merge (hw : w.Distinct) (hends : BothEnds ["range"] w) :
    readSearch? d (({} : SearchSection).toValue.merge w) = readSearch? d w := by
  have hfits : ({} : SearchSection).Fits := fits_of_readSearch? (d := d) (v := .record []) rfl
  obtain ⟨hband, hstep, htrials, happlication, hmax⟩ :=
    readSearch?_record.mp (readSearch?_toValue (d := d) hfits)
  apply read_merge hw
  rintro upper s rfl hn
  rw [readSearch?_record, readSearch?_record,
    reads_mergeFields hn hband fun x hx =>
      readBand?_merge (hw.of_lookup hx) (hends.of_lookup hx),
    reads_mergeFields_leaf hn hstep rfl,
    reads_mergeFields_leaf hn htrials rfl,
    reads_mergeFields_leaf hn happlication rfl,
    reads_mergeFields_leaf hn hmax rfl]

theorem readPlatform?_merge (hw : w.Distinct) :
    readPlatform? d (({} : PlatformSection).toValue.merge w) = readPlatform? d w := by
  obtain ⟨hheader, hlead⟩ := readPlatform?_record.mp (readPlatform?_toValue (d := d) {})
  apply read_merge hw
  intro upper s _ hn
  rw [readPlatform?_record, readPlatform?_record,
    reads_mergeFields_leaf hn hheader rfl,
    reads_mergeFields_leaf hn hlead rfl]

theorem readToolchain?_merge (hw : w.Distinct) :
    readToolchain? d (({} : ToolchainSection).toValue.merge w) = readToolchain? d w := by
  obtain ⟨hprogram, htargets, harguments, hdirectory, hsource, hlog⟩ :=
    readToolchain?_record.mp (readToolchain?_toValue (d := d) {})
  apply read_merge hw
  intro upper s _ hn
  rw [readToolchain?_record, readToolchain?_record,
    reads_mergeFields_leaf hn hprogram rfl,
    reads_mergeFields_leaf hn htargets rfl,
    reads_mergeFields_leaf hn harguments rfl,
    reads_mergeFields_leaf hn hdirectory rfl,
    reads_mergeFields_leaf hn hsource rfl,
    reads_mergeFields_leaf hn hlog rfl]

theorem readTrace?_merge (hw : w.Distinct) :
    readTrace? d (({} : TraceSection).toValue.merge w) = readTrace? d w := by
  obtain ⟨hlead, htransitions⟩ := readTrace?_record.mp (readTrace?_toValue (d := d) {})
  apply read_merge hw
  intro upper s _ hn
  rw [readTrace?_record, readTrace?_record,
    reads_mergeFields_leaf hn hlead rfl,
    reads_mergeFields_leaf hn htransitions rfl]

theorem readTestbench?_merge (hw : w.Distinct) :
    readTestbench? d (({} : TestbenchSection).toValue.merge w) = readTestbench? d w := by
  obtain ⟨hruns, happlication, hfailure, hsuccess, houtput⟩ :=
    readTestbench?_record.mp (readTestbench?_toValue (d := d) (s := {}) (by decide))
  apply read_merge hw
  intro upper s _ hn
  rw [readTestbench?_record, readTestbench?_record,
    reads_mergeFields_leaf hn hruns rfl,
    reads_mergeFields_leaf hn happlication rfl,
    reads_mergeFields_leaf hn hfailure rfl,
    reads_mergeFields_leaf hn hsuccess rfl,
    reads_mergeFields_leaf hn houtput rfl]

theorem readLogging?_merge (hw : w.Distinct) :
    readLogging? d (({} : LoggingSection).toValue.merge w) = readLogging? d w := by
  obtain ⟨hlevel, hformat, hdirectory, hconsole, hrotation⟩ :=
    readLogging?_record.mp (readLogging?_toValue (d := d) {})
  apply read_merge hw
  intro upper s _ hn
  rw [readLogging?_record, readLogging?_record,
    reads_mergeFields_leaf hn hlevel rfl,
    reads_mergeFields_leaf hn hformat rfl,
    reads_mergeFields_leaf hn hdirectory rfl,
    reads_mergeFields_leaf hn hconsole rfl,
    reads_mergeFields_leaf hn hrotation rfl]

/-! ## Documents put over the defaults -/

/-- A document is read over the layer of defaults as it is read by itself. -/
theorem ofValue?_merge (hv : v.Distinct) (hends : BothEnds bandPath v) :
    ofValue? d (({} : Config).toValue.merge v) = ofValue? d v := by
  have hfits : ({} : Config).Fits := fits_of_ofValue? (d := d) (v := .record []) rfl
  obtain ⟨hsearch, hplatform, htoolchain, htrace, htestbench, hlogging⟩ :=
    ofValue?_record.mp (ofValue?_toValue (d := d) hfits)
  apply read_merge hv
  rintro upper c rfl hn
  rw [ofValue?_record, ofValue?_record,
    reads_mergeFields hn hsearch fun w hw =>
      readSearch?_merge (hv.of_lookup hw) (hends.of_lookup hw),
    reads_mergeFields hn hplatform fun w hw => readPlatform?_merge (hv.of_lookup hw),
    reads_mergeFields hn htoolchain fun w hw => readToolchain?_merge (hv.of_lookup hw),
    reads_mergeFields hn htrace fun w hw => readTrace?_merge (hv.of_lookup hw),
    reads_mergeFields hn htestbench fun w hw => readTestbench?_merge (hv.of_lookup hw),
    reads_mergeFields hn hlogging fun w hw => readLogging?_merge (hv.of_lookup hw)]

/-- **The defaults coincide.** Whatever a document without repeated names leaves out, the reader puts
in what the layer of defaults has there, so whichever way documents are read, it makes no difference
whether one is put over that layer first: both fail, or both give the same configuration. Put over
it and read as layers are, a plain document is what it is on its own, and so is every document that
can be read on its own at all. -/
theorem defaults_coincide (hv : v.Distinct) (hends : BothEnds bandPath v) :
    (∀ d, ofValue? d (({} : Config).toValue.merge v) = ofValue? d v) ∧
      (Plain v → ofLayers? [v] = ofValue? .single v) ∧
      ∀ c, ofValue? .single v = some c → ofLayers? [v] = some c := by
  have hmerge (d : Dialect) : ofValue? d (({} : Config).toValue.merge v) = ofValue? d v :=
    ofValue?_merge hv hends
  refine ⟨hmerge, fun hplain => ?_, fun c hc => ?_⟩
  · exact (hmerge .layered).trans hplain.ofValue?_eq
  · exact (hmerge .layered).trans (ofValue?_layered hc)

/-- A document gives some sections and of these some fields, one choice by a record, and a field that
no section has. -/
theorem defaults_coincide_on_partial_sections :
    let v : Value := .record
      [ ("search", .record
          [("range", .record [("low", .nat 500), ("high", .nat 4000)]), ("measurements", .nat 7)]),
        ("toolchain", .record [("trace_source", .record [("stdout", .null)])]),
        ("trace", .record [("transitions", .record [("a", .ofTexts ["b"]), ("b", .ofTexts [])])]),
        ("logging", .record [("log_dir", .text "logs"), ("colours", .bool false)]) ]
    let c : Config :=
      { search := { band := ⟨500, 4000⟩, trials := 7 }
        toolchain := { traceSource := .standardOutput }
        trace := { transitions := some (.ofList [("a", ["b"]), ("b", [])]) }
        logging := { directory := some "logs" } }
    v.Distinct ∧ BothEnds bandPath v ∧ Plain v ∧ ofValue? .single v = some c ∧
      ofLayers? [v] = ofValue? .single v ∧ ofLayers? [v] = some c := by
  intro v c
  have hnull : Value.null.Distinct := Value.distinct_of_not_record rfl
  have hbool (b : Bool) : (Value.bool b).Distinct := Value.distinct_of_not_record rfl
  have hnat (n : Nat) : (Value.nat n).Distinct := Value.distinct_of_not_record rfl
  have htext (s : String) : (Value.text s).Distinct := Value.distinct_of_not_record rfl
  have htexts (texts : List String) : (Value.ofTexts texts).Distinct :=
    Value.distinct_of_not_record rfl
  have hv : v.Distinct := by
    simp [v, Value.distinct_record_iff, hnull, hbool, hnat, htext, htexts]
  have hends : BothEnds bandPath v := by
    intro fields hat
    obtain rfl : [("low", Value.nat 500), ("high", Value.nat 4000)] = fields := by
      simpa [v, bandPath, Value.atPath?, Value.lookup] using hat
    decide
  have hplain : Plain v := by
    refine ⟨rfl, ?_, ?_, ?_⟩
    · simp [v, sectionNames, Value.atPath?, Value.lookup, Value.isRecord]
    · simp [v, choicePaths, Value.atPath?, Value.lookup, plainChoice]
    · simp [v, bandPath, Value.atPath?, Value.lookup]
  have hc : ofValue? .single v = some c := by rfl
  obtain ⟨-, hsame, hload⟩ := defaults_coincide hv hends
  exact ⟨hv, hends, hplain, hc, hsame hplain, hload c hc⟩

/-- Where one end of the band is left out, only the layer has it. -/
example :
    let v : Value := .record [("search", .record [("range", .record [("low", .nat 500)])])]
    ofValue? .layered v = none ∧
      (ofLayers? [v]).map (·.search.band) = some ⟨500, 10000⟩ :=
  ⟨rfl, rfl⟩

/-! ## A file by itself -/

/-- Empty layers change nothing. -/
theorem ofLayers?_of_empty (hv : v.isRecord = true) :
    ofLayers? [v, .record [], .record []] = ofLayers? [v] := by
  have hrecord : (({} : Config).toValue.merge v).isRecord = true := Value.isRecord_merge.trans hv
  simp only [ofLayers?, List.foldl_cons, List.foldl_nil, Value.merge_nil hrecord]

/-- If there is only one file, and it can be read on its own and passes the check, then that is what
is loaded. -/
theorem load_of_file_alone {t : FileTree} {cwd : Place} {path : String} {c : Config}
    (hfile : fileLayer? t cwd path = some v)
    (hown : ∀ place ∈ lookupPlaces cwd localFile, t.isFile place localFile = false)
    (hends : BothEnds bandPath v) (hc : ofValue? .single v = some c) (hcheck : c.check = .ok ()) :
    load t cwd [] (some path) = .ok c := by
  have hlayers : layers? t cwd [] path = some [v, .record [], .record []] := by
    simp [layers?, hfile, fileLayer?_of_absent hown, Environment.layer]
  have hload : ofLayers? [v, .record [], .record []] = some c := by
    rw [ofLayers?_of_empty (isRecord_of_fileLayer? hfile)]
    exact (ofValue?_merge (distinct_of_fileLayer? hfile) hends).trans (ofValue?_layered hc)
  simp [load, hlayers, hload, hcheck]

end SafeClock.Config
