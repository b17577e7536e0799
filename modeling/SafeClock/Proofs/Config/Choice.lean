import SafeClock.Proofs.Config.Leaf
import SafeClock.Proofs.Value.Merge

/-!
# Choices that are given as records

In layers a choice may be given as a record. Of such a record the name counts that comes first in
the order of names, and what else there is in it does not matter. When one record is put over
another, the names of both are in the record that is read:

> **the first name decides**: of a record over a record the choice of the upper one is read exactly
> if it has a name that no name of the lower one comes before, and else that of the lower one
> (`readChoice?_mergeFields`).

So an upper record, even an empty one, can leave a lower one its choice.
-/

set_option autoImplicit false

namespace SafeClock.Config

open Value (lookup mergeFields)

variable {α : Type} {a : α} {choices : List (String × α)} {fields lower upper : List (String × Value)}
  {v : Value} {name : String}

/-! ## The name that comes first -/

theorem foldl_least (fields : List (String × Value)) (field : String × Value) :
    let least := fields.foldl (fun a b => if b.1 < a.1 then b else a) field
    least ∈ field :: fields ∧ ∀ other ∈ field :: fields, least.1 ≤ other.1 := by
  induction fields generalizing field with
  | nil => simp
  | cons next rest ih =>
    obtain ⟨hmem, hle⟩ := ih (if next.1 < field.1 then next else field)
    obtain ⟨hfirst, hrest⟩ := List.forall_mem_cons.mp hle
    rw [List.foldl_cons]
    -- The one that is kept of the first two comes before both.
    have hboth : (if next.1 < field.1 then next else field).1 ≤ field.1 ∧
        (if next.1 < field.1 then next else field).1 ≤ next.1 := by
      split
      next hlt =>
        refine ⟨?_, String.le_refl _⟩
        exact (String.le_total _ _).resolve_right fun hle => String.not_lt.mpr hle hlt
      next hge => exact ⟨String.le_refl _, String.not_lt.mp hge⟩
    refine ⟨?_, List.forall_mem_cons.mpr ⟨String.le_trans hfirst hboth.1,
      List.forall_mem_cons.mpr ⟨String.le_trans hfirst hboth.2, hrest⟩⟩⟩
    rcases List.mem_cons.mp hmem with heq | hmem
    · rw [heq]
      split <;> simp
    · exact List.mem_cons_of_mem _ (List.mem_cons_of_mem _ hmem)

theorem leastField?_eq_some_iff (hnodup : (fields.map Prod.fst).Nodup) :
    leastField? fields = some (name, v) ↔
      lookup name fields = some v ∧ ∀ other ∈ fields.map Prod.fst, name ≤ other := by
  have hspec : ∀ least, leastField? fields = some least →
      least ∈ fields ∧ ∀ other ∈ fields.map Prod.fst, least.1 ≤ other := by
    intro least h
    cases fields with
    | nil => cases h
    | cons first rest =>
      obtain rfl := Option.some.inj h
      exact (foldl_least rest first).imp_right List.forall_mem_map.mpr
  constructor
  · intro h
    exact (hspec _ h).imp_left (Value.lookup_of_mem hnodup)
  · rintro ⟨hlookup, hle⟩
    have hmem := Value.mem_of_lookup hlookup
    obtain ⟨⟨own, w⟩, hown⟩ : ∃ least, leastField? fields = some least := by
      cases fields with
      | nil => cases hmem
      | cons first rest => exact ⟨_, rfl⟩
    obtain ⟨hownmem, hownle⟩ := hspec _ hown
    -- Each of the two names comes before the other, so they are one, and so are the fields.
    obtain rfl : own = name :=
      String.le_antisymm (hownle name (List.mem_map_of_mem hmem))
        (hle own (List.mem_map_of_mem hownmem))
    obtain rfl := Option.some.inj ((Value.lookup_of_mem hnodup hownmem).symm.trans hlookup)
    exact hown

/-- One record has a name that no name of another comes before. -/
def Leads (upper lower : List (String × Value)) : Prop :=
  ∃ name ∈ upper.map Prod.fst, ∀ other ∈ lower.map Prod.fst, name ≤ other

/-- The fields of two merged records have the names of both. -/
theorem mem_keys_mergeFields (hupper : (upper.map Prod.fst).Nodup) :
    name ∈ (mergeFields lower upper).map Prod.fst ↔
      name ∈ upper.map Prod.fst ∨ name ∈ lower.map Prod.fst := by
  simp only [← not_iff_not, not_or, ← Value.lookup_eq_none_iff, Value.lookup_mergeFields hupper,
    Option.or_eq_none_iff, Option.map_eq_none_iff]

/-! ## Reading it -/

theorem readChoice?_record_eq_some_iff :
    readChoice? .layered choices (.record fields) = some a ↔
      ∃ name, leastField? fields = some (name, .null) ∧
        (choices.find? (·.1 == name)).map Prod.snd = some a := by
  rw [readChoice?]
  split
  next name hleast => simp [hleast]
  next hne =>
    simp only [reduceCtorEq, false_iff]
    rintro ⟨name, hleast, -⟩
    exact hne name hleast

/-- Each choice is listed under its own name. -/
def Named (nameOf : α → String) (choices : List (String × α)) : Prop :=
  ∀ entry ∈ choices, entry.1 = nameOf entry.2

theorem Named.eq_of_find? {nameOf : α → String} (h : Named nameOf choices)
    (hfind : (choices.find? (·.1 == name)).map Prod.snd = some a) : name = nameOf a := by
  obtain ⟨entry, hentry, rfl⟩ := Option.map_eq_some_iff.mp hfind
  have hname : entry.1 = name := by simpa using List.find?_some hentry
  rw [← hname, h entry (List.mem_of_find?_eq_some hentry)]

/-- The first name of merged records is the first one of one of them: of the upper one if this one
leads, of the lower one if not. -/
theorem leastField?_mergeFields (hlower : (lower.map Prod.fst).Nodup)
    (hupper : (upper.map Prod.fst).Nodup)
    (h : leastField? (mergeFields lower upper) = some (name, .null)) :
    Leads upper lower ∧ leastField? upper = some (name, .null) ∨
      ¬Leads upper lower ∧ leastField? lower = some (name, .null) := by
  obtain ⟨hlookup, hle⟩ :=
    (leastField?_eq_some_iff (Value.nodup_keys_mergeFields hlower)).mp h
  simp only [mem_keys_mergeFields hupper, or_imp, forall_and] at hle
  rw [Value.lookup_mergeFields hupper] at hlookup
  cases hown : lookup name upper with
  | some v =>
    -- What was merged there is null, so nothing was merged.
    rw [hown, Option.map_some, Option.some_or, Option.some.injEq] at hlookup
    have hplain : v.isRecord = false := by
      rw [← Value.isRecord_put, hlookup]
      rfl
    rw [Value.put_of_not_record (by simp [hplain])] at hlookup
    exact .inl ⟨⟨name, List.mem_map_of_mem (Value.mem_of_lookup hown), hle.2⟩,
      (leastField?_eq_some_iff hupper).mpr ⟨hlookup ▸ hown, hle.1⟩⟩
  | none =>
    rw [hown, Option.map_none, Option.none_or] at hlookup
    refine .inr ⟨?_, (leastField?_eq_some_iff hlower).mpr ⟨hlookup, hle.2⟩⟩
    rintro ⟨lead, hlead, hbefore⟩
    have hname := List.mem_map_of_mem (f := Prod.fst) (Value.mem_of_lookup hlookup)
    obtain rfl : lead = name := String.le_antisymm (hbefore name hname) (hle.1 lead hlead)
    exact Value.lookup_eq_none_iff.mp hown hlead

/-- **The first name decides.** -/
theorem readChoice?_mergeFields {nameOf : α → String} (hnamed : Named nameOf choices)
    (hlower : (lower.map Prod.fst).Nodup) (hupper : (upper.map Prod.fst).Nodup)
    (h : readChoice? .layered choices (.record (mergeFields lower upper)) = some a) :
    (readChoice? .layered choices (.record upper) = some a ↔ Leads upper lower) ∧
      (¬Leads upper lower → readChoice? .layered choices (.record lower) = some a) := by
  obtain ⟨name, hleast, hfind⟩ := readChoice?_record_eq_some_iff.mp h
  rcases leastField?_mergeFields hlower hupper hleast with ⟨hleads, hown⟩ | ⟨hleads, hown⟩
  · have hread := readChoice?_record_eq_some_iff.mpr ⟨name, hown, hfind⟩
    exact ⟨iff_of_true hread hleads, fun hnot => absurd hleads hnot⟩
  · refine ⟨iff_of_false (fun hread => hleads ?_) hleads, fun _ =>
      readChoice?_record_eq_some_iff.mpr ⟨name, hown, hfind⟩⟩
    -- Both readings would give the same choice, so they would take the same name.
    obtain ⟨other, hother, hfind'⟩ := readChoice?_record_eq_some_iff.mp hread
    obtain rfl : other = name :=
      (hnamed.eq_of_find? hfind').trans (hnamed.eq_of_find? hfind).symm
    have hmem := Value.mem_of_lookup ((leastField?_eq_some_iff hupper).mp hother).1
    refine ⟨other, List.mem_map_of_mem hmem, fun key hkey => ?_⟩
    exact ((leastField?_eq_some_iff hlower).mp hown).2 key hkey

/-! ## The leaves that are choices -/

theorem named_traceSources : Named TraceSource.name traceSources :=
  List.forall_mem_map.mpr fun _ _ => rfl

theorem named_logFormats : Named LogFormat.name logFormats :=
  List.forall_mem_map.mpr fun _ _ => rfl

theorem named_rotations : Named Rotation.name rotations :=
  List.forall_mem_map.mpr fun _ _ => rfl

/-- A choice that is read of merged records is that of the upper one exactly if this one leads, and
that of the lower one if it does not. -/
theorem Leaf.read_mergeFields {leaf : Leaf Config} (hleaf : IsLeaf .layered leaf)
    (hpath : leaf.path ∈ choicePaths) (hlower : (lower.map Prod.fst).Nodup)
    (hupper : (upper.map Prod.fst).Nodup) {x : leaf.Datum}
    (h : leaf.read (.record (mergeFields lower upper)) = some x) :
    (leaf.read (.record upper) = some x ↔ Leads upper lower) ∧
      (¬Leads upper lower → leaf.read (.record lower) = some x) := by
  rcases hleaf with hleaf | ⟨e, rfl⟩
  · have hall : ∀ leaf ∈ fieldLeaves .layered, leaf.path ∈ choicePaths → ∀ x : leaf.Datum,
        leaf.read (.record (mergeFields lower upper)) = some x →
          (leaf.read (.record upper) = some x ↔ Leads upper lower) ∧
            (¬Leads upper lower → leaf.read (.record lower) = some x) := by
      have hchoice {α : Type} {nameOf : α → String} {choices : List (String × α)}
          (hnamed : Named nameOf choices) (x : α) :=
        readChoice?_mergeFields (a := x) hnamed hlower hupper
      simpa [fieldLeaves, searchLeaves, bandLeaves, platformLeaves, toolchainLeaves, traceLeaves,
        testbenchLeaves, loggingLeaves, Leaf.field, Leaf.under, Leaf.whole, choicePaths]
        using ⟨hchoice named_traceSources, hchoice named_logFormats, hchoice named_rotations⟩
    exact hall leaf hleaf hpath x h
  · exact absurd hpath (by simp [eventLeaf, Leaf.under, choicePaths])

end SafeClock.Config
