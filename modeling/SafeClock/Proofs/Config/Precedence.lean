import SafeClock.Proofs.Config.Choice
import SafeClock.Proofs.Config.Layers
import SafeClock.Proofs.System.FileTree

/-!
# Which layer has the last word

The layers of a configuration are put over each other and read as one document. Leaf by leaf, that
document says what the highest layer says that has a value for the leaf:

> **the highest layer counts**: a leaf is read of the highest layer that gives it, as long as no
> layer above that one takes its place away, exactly if that layer has the last word, and of the
> layers below it if not (`Governs.leaf`, `Governs.beneath`).

A choice may be written as a record that has the name of the choice in it. Two such records are
merged like any others, and the name that comes first in the order of names is taken, whichever
layer it is of. That is the only way in which a leaf can be of a lower layer than the highest one
that gives it, and there the layers do not keep what their order promises (`lower_choice_taken`).

The defaults have no table of transitions. So a table that is given in layers is made of their
entries alone, event by event, and the timer chain is used whole or not at all.
-/

set_option autoImplicit false

namespace SafeClock.Config

open Value (stack)
open Leaf (field)

variable {c : Config} {t : FileTree} {cwd : Place} {environment : List (String × String)}
  {path : Option String} {given layers : List Value} {v w : Value} {e : Event}

/-- The place of the table of transitions. -/
def tablePath : List String := ["trace", "transitions"]

theorem ofLayers?_eq :
    ofLayers? given = ofValue? .layered (stack (({} : Config).toValue :: given)) := by
  rw [ofLayers?, Value.stack_cons]

/-- What is given at a path has the last word there over what lies below: always, but for a choice
that is given as a record over a record and has no name as early as all the names of that one. -/
def HasLastWord (path : List String) (under : Option Value) (v : Value) : Prop :=
  path ∈ choicePaths → ∀ lower upper, under = some (.record lower) → v = .record upper →
    Leads upper lower

theorem hasLastWord_of_not_record {under : Option Value} {place : List String}
    (h : v.isRecord = false) : HasLastWord place under v := by
  rintro - lower upper - rfl
  cases h

/-- A leaf is what the highest layer says that gives it, if no layer above that one takes its place
away, exactly if it has the last word on it. If it has not, the leaf is what the layers below say. -/
theorem read_of_highest (hd : ∀ l ∈ layers, l.Distinct)
    (hc : ofValue? .layered (stack layers) = some c) {leaf : Leaf Config}
    (hleaf : IsLeaf .layered leaf) {below : List Value} {top : Value} {above : List Value}
    (hlayers : layers = below ++ top :: above) (htop : top.atPath? leaf.path = some v)
    (habove : ∀ l ∈ above, l.Silent leaf.path) :
    (leaf.read v = some (leaf.get c) ↔
        HasLastWord leaf.path ((stack below).atPath? leaf.path) v) ∧
      (¬HasLastWord leaf.path ((stack below).atPath? leaf.path) v →
        ∃ u, (stack below).atPath? leaf.path = some u ∧ leaf.read u = some (leaf.get c)) := by
  subst hlayers
  have hbelow : (stack below).Distinct :=
    Value.distinct_stack fun l hl => hd l (List.mem_append_left _ hl)
  have hread : leaf.read (Value.put ((stack below).atPath? leaf.path) v) = some (leaf.get c) := by
    refine Leaf.readBy_ofValue? hleaf _ c _ (Value.distinct_stack hd) hc ?_
    exact Value.atPath?_stack (fun l hl => hd l (List.mem_append_right _ hl)) htop habove
  by_cases hboth : ∃ lower upper, (stack below).atPath? leaf.path = some (.record lower) ∧
      v = .record upper
  · obtain ⟨lower, upper, hlower, rfl⟩ := hboth
    rw [hlower, Value.put, Value.merge] at hread
    by_cases hpath : leaf.path ∈ choicePaths
    · have hupper : (upper.map Prod.fst).Nodup := hd top (by simp) leaf.path upper htop
      have hword : HasLastWord leaf.path ((stack below).atPath? leaf.path) (.record upper) ↔
          Leads upper lower := by
        refine ⟨fun h => h hpath lower upper hlower rfl, ?_⟩
        rintro hleads - _ _ hlower' hupper'
        rw [hlower, Option.some.injEq, Value.record.injEq] at hlower'
        cases hupper'
        exact hlower' ▸ hleads
      obtain ⟨hiff, hbeneath⟩ :=
        Leaf.read_mergeFields hleaf hpath (hbelow leaf.path lower hlower) hupper hread
      rw [hword]
      exact ⟨hiff, fun hnot => ⟨_, hlower, hbeneath hnot⟩⟩
    · -- A leaf that is no choice cannot be read of a record, so nothing has been merged here.
      rw [Leaf.read_record hleaf hpath] at hread
      cases hread
  · have hput : Value.put ((stack below).atPath? leaf.path) v = v := by
      refine Value.put_of_not_record fun hv u hu => Bool.eq_false_iff.mpr fun hrecord => hboth ?_
      obtain ⟨upper, rfl⟩ := Value.isRecord_iff.mp hv
      obtain ⟨lower, rfl⟩ := Value.isRecord_iff.mp hrecord
      exact ⟨lower, upper, hu, rfl⟩
    rw [hput] at hread
    have hword : HasLastWord leaf.path ((stack below).atPath? leaf.path) v :=
      fun _ lower upper hlower hupper => absurd ⟨lower, upper, hlower, hupper⟩ hboth
    exact ⟨iff_of_true hread hword, fun hnot => absurd hword hnot⟩

/-- A document that leaves the place of the table alone, or has null there, is read as a
configuration without one. -/
theorem transitions_eq_none (hc : ofValue? .layered v = some c)
    (h : v.Silent tablePath ∨ v.atPath? tablePath = some .null) : c.trace.transitions = none := by
  rcases h with h | h
  · obtain ⟨fields, rfl, htrace⟩ := Value.silent_cons_iff.mp h
    have hsection := (ofValue?_record.mp hc).2.2.2.1
    cases hx : Value.lookup "trace" fields with
    | none =>
      rw [Reads, hx, Option.elim_none, Option.some.injEq] at hsection
      rw [← hsection]
    | some x =>
      obtain ⟨inner, rfl, hinner⟩ := Value.silent_cons_iff.mp (htrace x hx)
      have hread := (readTrace?_record.mp (hsection.of_lookup hx)).2
      cases hy : Value.lookup "transitions" inner with
      | none =>
        rw [Reads, hy, Option.elim_none, Option.some.injEq] at hread
        exact hread.symm
      | some y => exact absurd (hinner y hy) Value.not_silent_nil
  · obtain ⟨fields, trace, rfl, htrace, hinner⟩ := Value.atPath?_cons_eq_some_iff.mp h
    obtain ⟨inner, x, rfl, hx, hxw⟩ := Value.atPath?_cons_eq_some_iff.mp hinner
    obtain rfl : x = .null := by simpa using hxw
    have hsection := (ofValue?_record.mp hc).2.2.2.1.of_lookup htrace
    exact (Option.some.inj ((readTrace?_record.mp hsection).2.of_lookup hx)).symm

/-- A table at its place in a document is the one that is used. -/
theorem readTable?_of_atPath? (hc : ofValue? .layered v = some c)
    (hw : v.atPath? tablePath = some w) (hnull : w ≠ .null) :
    c.trace.transitions = some c.trace.table ∧ readTable? w = some c.trace.table := by
  obtain ⟨fields, trace, rfl, htrace, hinner⟩ := Value.atPath?_cons_eq_some_iff.mp hw
  obtain ⟨inner, x, rfl, hx, hxw⟩ := Value.atPath?_cons_eq_some_iff.mp hinner
  obtain rfl : x = w := by simpa using hxw
  have hsection := (ofValue?_record.mp hc).2.2.2.1.of_lookup htrace
  have hread := (readTrace?_record.mp hsection).2.of_lookup hx
  have hoptional : readOptional? readTable? x = (readTable? x).map some := by
    cases x with
    | null => exact absurd rfl hnull
    | _ => rfl
  rw [hoptional] at hread
  obtain ⟨table, htable, htransitions⟩ := Option.map_eq_some_iff.mp hread
  have heq : c.trace.table = table := by
    rw [TraceSection.table, ← htransitions, Option.getD_some]
  exact ⟨heq ▸ htransitions.symm, heq ▸ htable⟩

/-- A document with a table at its place is read as a configuration with the entries of that table,
each of which lists its successors. -/
theorem table_of_atPath? (hv : v.Distinct) (hc : ofValue? .layered v = some c)
    (hw : v.atPath? tablePath = some w) (hnull : w ≠ .null) :
    c.trace.transitions = some c.trace.table ∧
      (∀ e, e ∈ c.trace.table.keys ↔ (v.atPath? (tablePath ++ [e])).isSome = true) ∧
      ∀ e ∈ c.trace.table.keys, ∃ x next, v.atPath? (tablePath ++ [e]) = some x ∧
        readTexts? x = some next ∧ c.trace.table.successors e = (EventSet.ofList next).toList := by
  obtain ⟨htransitions, htable⟩ := readTable?_of_atPath? hc hw hnull
  cases w with
  | record entries =>
    have hlookup (e : Event) : v.atPath? (tablePath ++ [e]) = Value.lookup e entries := by
      rw [Value.atPath?_append, hw, Option.bind_some, Value.atPath?_record]
      cases Value.lookup e entries <;> rfl
    refine ⟨htransitions, fun e => ?_, fun e he => ?_⟩
    · rw [mem_keys_of_readTable? htable, hlookup, ← not_iff_not, ← Value.lookup_eq_none_iff,
        Option.not_isSome_iff_eq_none]
    obtain ⟨x, next, hx, hnext⟩ := (readTable?_record htable).1 e he
    have hat : v.atPath? (tablePath ++ [e]) = some x :=
      (hlookup e).trans (Value.lookup_of_mem (hv _ _ hw) hx)
    have hread := Leaf.readBy_ofValue? (.inr ⟨e, rfl⟩) v c x hv hc hat
    obtain ⟨_, hsame, hsuccessors⟩ := Option.map_eq_some_iff.mp hread
    obtain rfl := Option.some.inj (hnext.symm.trans hsame)
    exact ⟨x, next, hat, hnext, hsuccessors.symm⟩
  | _ => cases htable

theorem isRecord_of_readTexts? {next : List String} (h : readTexts? v = some next) :
    v.isRecord = false := by
  cases v with
  | list => rfl
  | _ => cases h

/-- The defaults list no successors. -/
theorem atPath?_default_table : (({} : Config).toValue).atPath? (tablePath ++ [e]) = none := by
  rfl

/-- What layers that are put over the defaults say of a configuration. -/
structure Governs (given : List Value) (c : Config) : Prop where
  /-- Nothing is written for the configuration that is not of one of its leaves. -/
  known : ∀ path w, c.toValue.atPath? path = some w → w.isRecord = false →
    ∃ leaf, IsLeaf .layered leaf ∧ leaf.path = path
  /-- A leaf is read of the highest layer that gives it, as long as no layer above that one takes
  its place away, exactly if that layer has the last word. -/
  leaf : ∀ leaf, IsLeaf .layered leaf → ∀ below top above v,
    ({} : Config).toValue :: given = below ++ top :: above → top.atPath? leaf.path = some v →
    (∀ l ∈ above, l.Silent leaf.path) →
    (leaf.read v = some (leaf.get c) ↔
      HasLastWord leaf.path ((stack below).atPath? leaf.path) v)
  /-- A leaf on which that layer has not the last word is read of what the layers below it come
  to. -/
  beneath : ∀ leaf, IsLeaf .layered leaf → ∀ below top above v,
    ({} : Config).toValue :: given = below ++ top :: above → top.atPath? leaf.path = some v →
    (∀ l ∈ above, l.Silent leaf.path) →
    ¬HasLastWord leaf.path ((stack below).atPath? leaf.path) v →
    ∃ u, (stack below).atPath? leaf.path = some u ∧ leaf.read u = some (leaf.get c)
  /-- The successors of an event are those of the highest layer that lists any for it, whatever the
  layers below list. -/
  successors : ∀ e below top above v, ({} : Config).toValue :: given = below ++ top :: above →
    top.atPath? (tablePath ++ [e]) = some v → (∀ l ∈ above, l.Silent (tablePath ++ [e])) →
    ∃ next, readTexts? v = some next ∧ c.trace.table.successors e = (EventSet.ofList next).toList
  /-- If the layers leave the place of the table alone, or null is what they come to there, no table
  is set. -/
  untabled : (stack (({} : Config).toValue :: given)).Silent tablePath ∨
    (stack (({} : Config).toValue :: given)).atPath? tablePath = some .null →
    c.trace.transitions = none
  /-- If there is a table in the layers, the one that is used has an entry for each event that they
  list successors of, and each of its entries is one of a layer. -/
  table : ∀ w, (stack (({} : Config).toValue :: given)).atPath? tablePath = some w → w ≠ .null →
    c.trace.transitions = some c.trace.table ∧
      (∀ e, e ∈ c.trace.table.keys ↔
        ((stack (({} : Config).toValue :: given)).atPath? (tablePath ++ [e])).isSome = true) ∧
      ∀ e ∈ c.trace.table.keys, ∃ l ∈ given, ∃ x next, l.atPath? (tablePath ++ [e]) = some x ∧
        readTexts? x = some next ∧ c.trace.table.successors e = (EventSet.ofList next).toList

theorem governs_of_ofLayers? (hd : ∀ l ∈ given, l.Distinct) (hc : ofLayers? given = some c) :
    Governs given c := by
  rw [ofLayers?_eq] at hc
  have hdistinct : ∀ l ∈ ({} : Config).toValue :: given, l.Distinct :=
    List.forall_mem_cons.mpr ⟨distinct_toValue _, hd⟩
  refine ⟨fun path w => exists_leaf_of_atPath?_toValue,
    fun leaf hleaf below top above v hlayers htop habove =>
      (read_of_highest hdistinct hc hleaf hlayers htop habove).1,
    fun leaf hleaf below top above v hlayers htop habove =>
      (read_of_highest hdistinct hc hleaf hlayers htop habove).2,
    fun e below top above v hlayers htop habove => ?_, transitions_eq_none hc,
    fun w hw hnull => ?_⟩
  · have hread := (read_of_highest hdistinct hc (.inr ⟨_, rfl⟩) hlayers htop habove).1.mpr
      fun hpath => absurd hpath (by simp [eventLeaf, Leaf.under, choicePaths])
    obtain ⟨next, hnext, hsuccessors⟩ := Option.map_eq_some_iff.mp hread
    exact ⟨next, hnext, hsuccessors.symm⟩
  obtain ⟨htable, hkeys, hentries⟩ :=
    table_of_atPath? (Value.distinct_stack hdistinct) hc hw hnull
  refine ⟨htable, hkeys, fun e he => ?_⟩
  obtain ⟨x, next, hx, hnext, hsuccessors⟩ := hentries e he
  obtain ⟨below, top, above, hlayers, htop, -⟩ :=
    Value.exists_layer_of_atPath?_stack hdistinct (by simp [tablePath]) hx
      (isRecord_of_readTexts? hnext)
  have hmem : top ∈ ({} : Config).toValue :: given := hlayers ▸ by simp
  rcases List.mem_cons.mp hmem with rfl | hmem
  · -- The defaults are no layer of this kind: they have no table.
    rw [atPath?_default_table] at htop
    cases htop
  · exact ⟨top, hmem, x, next, htop, hnext, hsuccessors⟩

/-- **The highest layer counts.** Whatever is loaded was made of the layers of both files and of the
environment over the defaults, and these govern it, as any layers do that can be read as a
configuration. -/
theorem highest_layer_counts (c : Config) :
    (∀ given, (∀ l ∈ given, l.Distinct) → ofLayers? given = some c → Governs given c) ∧
      ∀ t cwd environment path, load t cwd environment path = .ok c →
        ∃ primary own,
          layers? t cwd environment (path.getD usualFile) =
            some [primary, own, Environment.layer environment] ∧
          Governs [primary, own, Environment.layer environment] c := by
  refine ⟨fun given => governs_of_ofLayers?, fun t cwd environment path h => ?_⟩
  obtain ⟨primary, own, hlayers, hd, hc⟩ := exists_layers_of_load h
  exact ⟨primary, own, hlayers, governs_of_ofLayers? hd hc⟩

/-- Two files and the environment set the step, both files list successors of one event, and only
the lower one gives the trials. Without files and variables, the defaults are loaded. -/
theorem highest_layer_counts_over_two_files :
    let lower : Value := .record
      [ ("search", .record [("step", .nat 10), ("measurements", .nat 5)]),
        ("trace", .record
          [("transitions", .record [("a", .ofTexts ["b"]), ("x", .ofTexts ["y"])])]) ]
    let upper : Value := .record
      [ ("search", .record [("step", .nat 9)]),
        ("trace", .record [("transitions", .record [("a", .ofTexts ["c", "a"])])]) ]
    let top : Value := .record [("search", .record [("step", .nat 7)])]
    (∃ c, ofLayers? [lower, upper, top] = some c ∧ c.search.step = 7 ∧ c.search.trials = 5 ∧
      c.trace.table.successors "a" = ["a", "c"] ∧ c.trace.transitions = some c.trace.table) ∧
      load FileTree.empty [] [] none = .ok {} ∧
        Governs [.record [], .record [], .record []] {} := by
  intro lower upper top
  constructor
  · have hnat (n : Nat) : (Value.nat n).Distinct := Value.distinct_of_not_record rfl
    have htexts (texts : List String) : (Value.ofTexts texts).Distinct :=
      Value.distinct_of_not_record rfl
    have hd : ∀ l ∈ [lower, upper, top], l.Distinct := by
      simp [lower, upper, top, Value.distinct_record_iff, hnat, htexts]
    obtain ⟨c, hc⟩ : ∃ c, ofLayers? [lower, upper, top] = some c := ⟨_, rfl⟩
    have hg := (highest_layer_counts c).1 _ hd hc
    have hstep : IsLeaf .layered (.under "search" Config.search
        (field "step" (readNat? frequencyLimit) SearchSection.step)) :=
      .inl (by simp [fieldLeaves, searchLeaves])
    have htrials : IsLeaf .layered (.under "search" Config.search
        (field "measurements" (readNat? countLimit) SearchSection.trials)) :=
      .inl (by simp [fieldLeaves, searchLeaves])
    have hsilent : ∀ l ∈ [upper, top], l.Silent ["search", "measurements"] := by
      simp [upper, top, Value.silent_cons_iff, Value.lookup]
    have htop : ∀ l ∈ [top], l.Silent (tablePath ++ ["a"]) := by
      simp [top, tablePath, Value.silent_cons_iff, Value.lookup]
    obtain ⟨next, hnext, hsuccessors⟩ :=
      hg.successors "a" [({} : Config).toValue, lower] upper [top] (.ofTexts ["c", "a"]) rfl rfl
        htop
    obtain rfl : ["c", "a"] = next := Option.some.inj hnext
    have hseven : some 7 = some c.search.step :=
      (hg.leaf _ hstep [({} : Config).toValue, lower, upper] top [] (.nat 7) rfl rfl (by simp)).mpr
        (hasLastWord_of_not_record rfl)
    have hfive : some 5 = some c.search.trials :=
      (hg.leaf _ htrials [({} : Config).toValue] lower [upper, top] (.nat 5) rfl rfl hsilent).mpr
        (hasLastWord_of_not_record rfl)
    have htable := hg.table (.record _) rfl (by simp)
    exact ⟨c, hc, (Option.some.inj hseven).symm, (Option.some.inj hfive).symm,
      hsuccessors.trans (by decide), htable.1⟩
  · have hfile (path : String) : fileLayer? FileTree.empty [] path = some (.record []) :=
      fileLayer?_of_absent fun place _ => FileTree.isFile_empty
    have hlayers : layers? FileTree.empty [] [] usualFile =
        some [.record [], .record [], .record []] := by
      simp [layers?, hfile, Environment.layer]
    have hc : ofLayers? [.record [], .record [], .record []] = some {} := rfl
    have hcheck : ({} : Config).check = .ok () := rfl
    have hload : load FileTree.empty [] [] none = .ok {} := by
      simp [load, hlayers, hc, hcheck]
    obtain ⟨primary, own, hsome, hg⟩ := (highest_layer_counts _).2 _ _ _ _ hload
    obtain ⟨rfl, rfl, -⟩ := by simpa [hlayers] using hsome
    exact ⟨hload, hg⟩

/-- Where both files write the format of the log as a record, the name that comes first is taken,
although the higher file gives the other one. -/
theorem lower_choice_taken :
    ¬ ∀ given c, (∀ l ∈ given, l.Distinct) → ofLayers? given = some c →
      ∀ leaf, IsLeaf .layered leaf → ∀ below top above v,
        ({} : Config).toValue :: given = below ++ top :: above → top.atPath? leaf.path = some v →
        (∀ l ∈ above, l.Silent leaf.path) → leaf.read v = some (leaf.get c) := by
  intro h
  let logs (name : String) : Value :=
    .record [("logging", .record [("format", .record [(name, .null)])])]
  let leaf : Leaf Config :=
    .under "logging" Config.logging (field "format" (readChoice? .layered logFormats)
      LoggingSection.format)
  have hnull : Value.null.Distinct := Value.distinct_of_not_record rfl
  have hd (name : String) : (logs name).Distinct := by
    simp [logs, Value.distinct_record_iff, hnull]
  have hleaf : IsLeaf .layered leaf := .inl (by simp [fieldLeaves, loggingLeaves, leaf])
  have hsilent : ∀ l ∈ [Value.record []], l.Silent leaf.path := by
    simp [leaf, field, Leaf.under, Value.silent_cons_iff, Value.lookup]
  have hread := h [logs "json", logs "pretty", .record []] { logging := { format := .json } }
    (by simp [hd, Value.distinct_nil]) rfl leaf hleaf [({} : Config).toValue, logs "json"]
    (logs "pretty") [.record []] (.record [("pretty", .null)]) rfl rfl hsilent
  have hpretty : leaf.read (.record [("pretty", .null)]) = some .pretty := rfl
  rw [hpretty] at hread
  cases hread

end SafeClock.Config
