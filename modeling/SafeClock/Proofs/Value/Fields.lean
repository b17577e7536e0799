import Mathlib.Data.List.Nodup
import SafeClock.Value

/-!
# Records and paths

The field of a name is the first one of that name, so a record is a map from names to values if no
name occurs twice. Setting fields one after the other keeps it so.

> **a field is found by its name**: where names are distinct, the fields of a record and what is
> found by name are the same (`lookup_of_mem`, `mem_of_lookup`), and setting one field changes
> nothing else (`lookup_set`).
-/

set_option autoImplicit false

namespace SafeClock.Value

variable {key name : String} {path : List String} {fields : List (String × Value)} {v w : Value}

/-- A list is read item by item: each item gives the result at its place. -/
theorem mapM_eq_some_iff {α β : Type} {f : α → Option β} {xs : List α} {ys : List β} :
    xs.mapM f = some ys ↔ xs.map f = ys.map some := by
  induction xs generalizing ys with
  | nil => cases ys <;> simp
  | cons x xs ih => cases ys <;> simp [List.mapM_cons, Option.bind_eq_some_iff, ih]

/-- Whether a value is a record. -/
def isRecord : Value → Bool
  | .record _ => true
  | _ => false

theorem isRecord_iff : v.isRecord = true ↔ ∃ fields, v = .record fields := by
  cases v <;> simp [isRecord]

/-! ## Fields -/

theorem lookup_cons {old : Value} : lookup key ((name, old) :: fields) =
    if name = key then some old else lookup key fields := by
  unfold lookup
  by_cases h : name = key <;> simp [h]

theorem mem_of_lookup (h : lookup key fields = some v) : (key, v) ∈ fields := by
  obtain ⟨field, hfield, rfl⟩ := Option.map_eq_some_iff.mp h
  obtain rfl : field.1 = key := by simpa using List.find?_some hfield
  exact List.mem_of_find?_eq_some hfield

theorem lookup_eq_none_iff : lookup key fields = none ↔ key ∉ fields.map Prod.fst := by
  rw [lookup, Option.map_eq_none_iff, List.find?_eq_none]
  grind

theorem lookup_of_mem (hn : (fields.map Prod.fst).Nodup) (h : (key, v) ∈ fields) :
    lookup key fields = some v := by
  induction fields with
  | nil => cases h
  | cons field rest ih =>
    obtain ⟨name, old⟩ := field
    obtain ⟨hname, hrest⟩ := List.nodup_cons.mp hn
    rw [lookup_cons]
    rcases List.mem_cons.mp h with heq | h
    · cases heq
      exact if_pos rfl
    · have hne : name ≠ key := fun heq => hname (List.mem_map.mpr ⟨_, h, heq.symm⟩)
      rw [if_neg hne]
      exact ih hrest h

theorem lookup_set : lookup key (set name v fields) =
    if name = key then some v else lookup key fields := by
  induction fields with
  | nil => exact lookup_cons
  | cons field rest ih =>
    obtain ⟨other, old⟩ := field
    by_cases hother : other = name
    · subst hother
      simp only [set, if_true, lookup_cons]
      split <;> rfl
    · simp only [set, if_neg hother, lookup_cons, ih]
      by_cases hkey : other = key
      · have hne : name ≠ key := fun heq => hother (hkey.trans heq.symm)
        simp [hkey, hne]
      · simp [hkey]

theorem mem_set {field : String × Value} (h : field ∈ set name v fields) :
    field = (name, v) ∨ field ∈ fields := by
  induction fields with
  | nil => exact .inl (List.mem_singleton.mp h)
  | cons other rest ih =>
    simp only [set] at h
    split at h <;> rcases List.mem_cons.mp h with heq | h
    · exact .inl (by simp_all)
    · exact .inr (List.mem_cons_of_mem _ h)
    · exact .inr (heq ▸ List.mem_cons_self)
    · exact (ih h).imp_right (List.mem_cons_of_mem _)

theorem keys_set : (set name v fields).map Prod.fst =
    if name ∈ fields.map Prod.fst then fields.map Prod.fst else fields.map Prod.fst ++ [name] := by
  induction fields with
  | nil => simp [set]
  | cons other rest ih =>
    by_cases h : other.1 = name
    · simp [set, h]
    · have h' : name ≠ other.1 := Ne.symm h
      simp only [set, if_neg h, List.map_cons, ih, List.mem_cons, h', false_or]
      split <;> rfl

theorem nodup_keys_set (hn : (fields.map Prod.fst).Nodup) :
    ((set name v fields).map Prod.fst).Nodup := by
  rw [keys_set]
  split
  · exact hn
  · next h => exact List.Nodup.append hn (List.nodup_singleton name) (by simpa using h)

/-! ## Paths -/

@[simp]
theorem atPath?_nil : v.atPath? [] = some v := by
  simp [atPath?]

theorem atPath?_record :
    (record fields).atPath? (key :: path) = (lookup key fields).bind (atPath? path) := by
  simp [atPath?]

theorem atPath?_of_not_record (h : v.isRecord = false) : v.atPath? (key :: path) = none := by
  cases v <;> simp_all [atPath?, isRecord]

theorem atPath?_cons_eq_some_iff : v.atPath? (key :: path) = some w ↔
    ∃ fields x, v = .record fields ∧ lookup key fields = some x ∧ x.atPath? path = some w := by
  cases v <;> simp [atPath?, Option.bind_eq_some_iff]

theorem atPath?_append {rest : List String} :
    v.atPath? (path ++ rest) = (v.atPath? path).bind (atPath? rest) := by
  induction path generalizing v with
  | nil => simp
  | cons key path ih =>
    cases v with
    | record fields =>
      rw [List.cons_append, atPath?_record, atPath?_record]
      cases lookup key fields with
      | none => rfl
      | some x => exact ih
    | _ => simp [atPath?]

/-! ## Distinct names -/

/-- No record on the way along any path has two fields of one name. Lists are not looked into, since
no path leads into one. -/
def Distinct (v : Value) : Prop :=
  ∀ path fields, v.atPath? path = some (.record fields) → (fields.map Prod.fst).Nodup

theorem distinct_of_not_record (h : v.isRecord = false) : v.Distinct := by
  rintro (- | ⟨key, path⟩) fields hat
  · rw [atPath?_nil, Option.some.injEq] at hat
    subst hat
    cases h
  · rw [atPath?_of_not_record h] at hat
    cases hat

theorem distinct_record_iff : (record fields).Distinct ↔
    (fields.map Prod.fst).Nodup ∧ ∀ field ∈ fields, field.2.Distinct := by
  constructor
  · intro h
    have hn : (fields.map Prod.fst).Nodup := h [] fields atPath?_nil
    refine ⟨hn, fun field hfield path inner hat => h (field.1 :: path) inner ?_⟩
    rw [atPath?_record, lookup_of_mem hn hfield]
    exact hat
  · rintro ⟨hn, h⟩ (- | ⟨key, path⟩) inner hat
    · obtain rfl := by simpa using hat
      exact hn
    · obtain ⟨_, x, heq, hx, hat⟩ := atPath?_cons_eq_some_iff.mp hat
      cases heq
      exact h (key, x) (mem_of_lookup hx) path inner hat

theorem Distinct.nodup_keys (h : (record fields).Distinct) : (fields.map Prod.fst).Nodup :=
  (distinct_record_iff.mp h).1

theorem Distinct.of_lookup (h : (record fields).Distinct) (hv : lookup key fields = some v) :
    v.Distinct :=
  (distinct_record_iff.mp h).2 _ (mem_of_lookup hv)

theorem Distinct.set (h : (record fields).Distinct) (hv : v.Distinct) :
    (record (set key v fields)).Distinct := by
  obtain ⟨hn, hfields⟩ := distinct_record_iff.mp h
  refine distinct_record_iff.mpr ⟨nodup_keys_set hn, fun field hfield => ?_⟩
  rcases mem_set hfield with rfl | hfield
  · exact hv
  · exact hfields field hfield

theorem distinct_nil : (record []).Distinct :=
  distinct_record_iff.mpr ⟨List.nodup_nil, by simp⟩

end SafeClock.Value
