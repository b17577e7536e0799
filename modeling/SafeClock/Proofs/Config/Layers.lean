import SafeClock.Config.Load
import SafeClock.Proofs.Interrupt.Relation
import SafeClock.Proofs.Value.Merge

/-!
# The layers of a configuration

However a layer comes about, its records have one field of a name: a file whose mapping repeats a
key and a variable whose braces do so give the last of these fields, and a table of transitions has
one entry for an event. So the laws of merging hold of all layers that a configuration is loaded
from:

> **layers are distinct**: the defaults, both files and the environment give values without
> repeated names (`distinct_toValue`, `distinct_of_fileLayer?`, `Environment.distinct_layer`), and
> a configuration that is loaded is made of these (`exists_layers_of_load`).
-/

set_option autoImplicit false

namespace SafeClock

open Value (Distinct distinct_of_not_record distinct_record_iff distinct_nil)

/-! ## Files -/

namespace Yaml

variable {d : Document} {depth : Nat} {node : Node} {entries : List (Node × Node)} {s : String}
  {v : Value} {fields : List (String × Value)}

theorem Scalar.isRecord_plainValue : (Scalar.plainValue s).isRecord = false := by
  unfold plainValue readReal?
  repeat' split
  all_goals rfl

theorem Scalar.isRecord_of_value? {plain : Bool} {tag : Option String}
    (h : Scalar.value? plain tag s = some v) : v.isRecord = false := by
  unfold value? at h
  split at h
  · obtain rfl := Option.some.inj h
    split
    · exact isRecord_plainValue
    · rfl
  · split at h
    · obtain ⟨b, -, rfl⟩ := Option.map_eq_some_iff.mp h
      rfl
    · split at h
      · obtain ⟨i, -, rfl⟩ := Option.map_eq_some_iff.mp h
        rfl
      · unfold readReal? at h
        repeat' split at h
        all_goals first | cases h; rfl | cases h

/-- Fields that are set one after the other never share a name. -/
theorem distinct_foldl_set {pairs : List (String × Value)} (hp : ∀ pair ∈ pairs, pair.2.Distinct)
    (h : (Value.record fields).Distinct) :
    (Value.record
      (pairs.foldl (fun fields (key, v) => Value.set key v fields) fields)).Distinct := by
  induction pairs generalizing fields with
  | nil => exact h
  | cons pair pairs ih =>
    rw [List.foldl_cons]
    exact ih (fun other hother => hp other (List.mem_cons_of_mem _ hother))
      (h.set (hp pair List.mem_cons_self))

namespace Document

theorem distinct_of_fields? (hv : ∀ node v, d.value? depth node = some v → v.Distinct)
    (h : d.fields? (depth + 1) entries = some fields) : (Value.record fields).Distinct := by
  rw [fields?] at h
  obtain ⟨pairs, hpairs, hfields⟩ := Option.bind_eq_some_iff.mp h
  obtain rfl := Option.some.inj hfields
  refine distinct_foldl_set (fun pair hpair => ?_) distinct_nil
  obtain ⟨entry, -, hentry⟩ :=
    List.mem_map.mp (Value.mapM_eq_some_iff.mp hpairs ▸ List.mem_map_of_mem hpair)
  simp only [bind, Option.bind_eq_some_iff, pure, Option.some.injEq] at hentry
  obtain ⟨key, -, v, hvalue, rfl⟩ := hentry
  exact hv entry.2 v hvalue

theorem distinct_of_value? (h : d.value? depth node = some v) : v.Distinct := by
  induction depth generalizing node v with
  | zero =>
    rw [value?] at h
    split at h
    · exact distinct_of_not_record (Scalar.isRecord_of_value? h)
    · cases h
  | succ depth ih =>
    rw [value?] at h
    split at h
    · exact distinct_of_not_record (Scalar.isRecord_of_value? h)
    · split at h
      · obtain ⟨items, -, rfl⟩ := Option.map_eq_some_iff.mp h
        exact distinct_of_not_record rfl
      · cases h
    · split at h
      · obtain ⟨fields, hfields, rfl⟩ := Option.map_eq_some_iff.mp h
        exact distinct_of_fields? (fun node v => ih) hfields
      · cases h
    · cases h

theorem distinct_of_record? (h : d.record? = some v) : v.Distinct := by
  unfold record? at h
  split at h
  · exact Option.some.inj h ▸ distinct_nil
  · exact Option.some.inj h ▸ distinct_nil
  · obtain ⟨fields, hfields, rfl⟩ := Option.map_eq_some_iff.mp h
    exact distinct_of_fields? (fun node v => distinct_of_value?) hfields
  · cases h

theorem isRecord_of_record? (h : d.record? = some v) : v.isRecord = true := by
  unfold record? at h
  split at h
  · exact Option.some.inj h ▸ rfl
  · exact Option.some.inj h ▸ rfl
  · obtain ⟨fields, -, rfl⟩ := Option.map_eq_some_iff.mp h
    rfl
  · cases h

end Document

theorem distinct_of_read? {text : String} (h : read? text = some v) : v.Distinct := by
  simp only [read?, bind, Option.bind_eq_some_iff] at h
  obtain ⟨tokens, -, d, -, h⟩ := h
  exact d.distinct_of_record? h

theorem isRecord_of_read? {text : String} (h : read? text = some v) : v.isRecord = true := by
  simp only [read?, bind, Option.bind_eq_some_iff] at h
  obtain ⟨tokens, -, d, -, h⟩ := h
  exact d.isRecord_of_record? h

end Yaml

namespace Config

/-! ## The environment -/

namespace Environment

variable {fuel : Nat} {v : Value} {found fields : List (String × Value)} {cs rest : List Char}

theorem isRecord_word : (word cs).isRecord = false := by
  simp only [word]
  repeat' split
  all_goals rfl

/-- A value without repeated names comes of every text, and such fields of fields like that. -/
theorem distinct_of_value_fields :
    (∀ {cs v rest}, value fuel cs = some (v, rest) → v.Distinct) ∧
      ∀ {cs found fields rest}, Environment.fields fuel found cs = some (fields, rest) →
        (Value.record found).Distinct → (Value.record fields).Distinct := by
  induction fuel with
  | zero => exact ⟨fun h => by simp [value] at h, fun h => by simp [Environment.fields] at h⟩
  | succ fuel ih =>
    obtain ⟨ihvalue, ihfields⟩ := ih
    constructor
    · intro cs v rest h
      simp only [value, bind] at h
      split at h <;> simp only [Option.bind_eq_some_iff, Prod.exists, Option.some.injEq,
        Prod.mk.injEq] at h
      · obtain ⟨v, rest, ⟨rfl, -⟩, rfl, -⟩ := h
        exact distinct_of_not_record rfl
      · obtain ⟨v, rest, ⟨rfl, -⟩, rfl, -⟩ := h
        exact distinct_of_not_record rfl
      · obtain ⟨fields, rest, hfields, v, -, ⟨rfl, -⟩, rfl, -⟩ := h
        exact ihfields hfields distinct_nil
      · obtain ⟨items, rest, -, v, -, ⟨rfl, -⟩, rfl, -⟩ := h
        exact distinct_of_not_record rfl
      · obtain ⟨text, rest, -, v, -, ⟨rfl, -⟩, rfl, -⟩ := h
        exact distinct_of_not_record rfl
      · obtain ⟨v, rest, ⟨rfl, -⟩, rfl, -⟩ := h
        exact distinct_of_not_record rfl
      · simp at h
      · obtain ⟨v, rest, ⟨rfl, -⟩, rfl, -⟩ := h
        exact distinct_of_not_record isRecord_word
    · intro cs found fields rest h hfound
      unfold Environment.fields at h
      split at h
      · obtain ⟨rfl, -⟩ := by simpa using h
        exact hfound
      · simp only [bind, Option.bind_eq_some_iff, Prod.exists] at h
        obtain ⟨name, behind, -, h⟩ := h
        split at h
        · simp only [Option.bind_eq_some_iff, Prod.exists] at h
          obtain ⟨v, behind, hv, h⟩ := h
          have hset : (Value.record (Value.set name v found)).Distinct := hfound.set (ihvalue hv)
          split at h
          · exact ihfields h hset
          · obtain ⟨rfl, -⟩ := by simpa using h
            exact hset
          · cases h
        · cases h

theorem distinct_valueOf {text : String} : (valueOf text).Distinct := by
  simp only [valueOf]
  split
  · next h => exact distinct_of_value_fields.1 h
  · exact distinct_of_not_record rfl

theorem distinct_nested {path : List String} (h : v.Distinct) : (nested path v).Distinct := by
  induction path with
  | nil => exact h
  | cons name path ih => simp [nested, distinct_record_iff, ih]

theorem distinct_layer (environment : List (String × String)) : (layer environment).Distinct := by
  unfold layer
  induction environment using List.reverseRecOn with
  | nil => exact distinct_nil
  | append_singleton environment entry ih =>
    obtain ⟨name, text⟩ := entry
    rw [List.foldl_append, List.foldl_cons, List.foldl_nil]
    dsimp only
    split
    · exact ih.merge (distinct_nested distinct_valueOf)
    · exact ih

end Environment

/-! ## The defaults -/

theorem distinct_table (t : TransitionTable) : t.toValue.Distinct := by
  refine distinct_record_iff.mpr ⟨?_, fun field hfield => ?_⟩
  · rw [List.map_map]
    exact t.keys_nodup
  · obtain ⟨entry, -, rfl⟩ := List.mem_map.mp hfield
    exact distinct_of_not_record rfl

theorem distinct_traceSection (s : TraceSection) : s.toValue.Distinct := by
  have htext : (Value.text s.lead).Distinct := distinct_of_not_record rfl
  unfold TraceSection.toValue
  cases s.transitions with
  | none => simpa [distinct_record_iff]
  | some t => simpa [distinct_record_iff, distinct_table]

theorem distinct_toValue (c : Config) : c.toValue.Distinct := by
  have htext (s : String) : (Value.text s).Distinct := distinct_of_not_record rfl
  have hnat (n : Nat) : (Value.nat n).Distinct := distinct_of_not_record rfl
  have htexts (texts : List String) : (Value.ofTexts texts).Distinct := distinct_of_not_record rfl
  have hbool (b : Bool) : (Value.bool b).Distinct := distinct_of_not_record rfl
  have hdirectory : ((c.logging.directory.map Value.text).getD .null).Distinct := by
    cases c.logging.directory <;> exact distinct_of_not_record rfl
  simp [toValue, SearchSection.toValue, Band.toValue, PlatformSection.toValue,
    ToolchainSection.toValue, TestbenchSection.toValue, LoggingSection.toValue,
    distinct_record_iff, distinct_traceSection, htext, hnat, htexts, hbool, hdirectory]

/-! ## What is loaded -/

/-- A file that is not there is an empty layer. -/
theorem fileLayer?_of_absent {t : FileTree} {cwd : Place} {path : String}
    (h : ∀ place ∈ lookupPlaces cwd path, t.isFile place path = false) :
    fileLayer? t cwd path = some (.record []) := by
  have hfind : (lookupPlaces cwd path).find? (t.isFile · path) = none := by
    simpa using h
  rw [fileLayer?, hfind]

theorem distinct_of_fileLayer? {t : FileTree} {cwd : Place} {path : String} {v : Value}
    (h : fileLayer? t cwd path = some v) : v.Distinct := by
  unfold fileLayer? at h
  split at h
  · exact Option.some.inj h ▸ distinct_nil
  · split at h
    · exact Yaml.distinct_of_read? h
    · cases h

theorem isRecord_of_fileLayer? {t : FileTree} {cwd : Place} {path : String} {v : Value}
    (h : fileLayer? t cwd path = some v) : v.isRecord = true := by
  unfold fileLayer? at h
  split at h
  · exact Option.some.inj h ▸ rfl
  · split at h
    · exact Yaml.isRecord_of_read? h
    · cases h

/-- What is loaded has been made of three layers without repeated names, over the defaults. -/
theorem exists_layers_of_load {t : FileTree} {cwd : Place} {environment : List (String × String)}
    {path : Option String} {c : Config} (h : load t cwd environment path = .ok c) :
    ∃ primary own,
      layers? t cwd environment (path.getD usualFile) =
        some [primary, own, Environment.layer environment] ∧
      (∀ l ∈ [primary, own, Environment.layer environment], l.Distinct) ∧
      ofLayers? [primary, own, Environment.layer environment] = some c := by
  dsimp only [load] at h
  split at h
  · cases h
  · next c' hlayers =>
    obtain rfl : c' = c := by
      split at h
      · exact Except.ok.inj h
      · cases h
    obtain ⟨layers, hlayers, hc⟩ := Option.bind_eq_some_iff.mp hlayers
    have hform := hlayers
    simp only [layers?, bind, Option.bind_eq_some_iff, pure, Option.some.injEq] at hform
    obtain ⟨primary, hprimary, own, hown, rfl⟩ := hform
    refine ⟨primary, own, hlayers, ?_, hc⟩
    simp [distinct_of_fileLayer? hprimary, distinct_of_fileLayer? hown,
      Environment.distinct_layer]

end Config

end SafeClock
