import Mathlib.Data.List.Induction
import SafeClock.Proofs.Value.Fields

/-!
# Values in layers

A path names a place in a value. A layer that is put over a value can do three things at such a
place: give a value for it, leave it alone, or take it away by something other than a record on the
way.

> **the highest layer counts**: what lies at a place of a stack of layers is what the highest layer
> gives that says anything about it (`atPath?_stack`), and what is no record lies at that place in
> one of the layers (`exists_layer_of_atPath?_stack`).

Two records at one place are merged, so the value that the highest layer gives is still put over
what the layers below it give.
-/

set_option autoImplicit false

namespace SafeClock.Value

variable {key name : String} {path : List String} {fields under upper : List (String × Value)}
  {u v w : Value} {layers below above : List Value} {top : Value}

/-! ## One value over another -/

/-- A value put over what lies at its place, if anything does. -/
def put : Option Value → Value → Value
  | some u, v => u.merge v
  | none, v => v

theorem merge_of_not_record (h : u.isRecord = false ∨ v.isRecord = false) : u.merge v = v := by
  cases v with
  | record => cases u <;> simp_all [merge, isRecord]
  | _ => simp [merge]

theorem isRecord_merge : (u.merge v).isRecord = v.isRecord := by
  cases v with
  | record => cases u <;> simp [merge, isRecord]
  | _ => simp [merge]

/-- An empty record changes nothing. -/
theorem merge_nil (h : u.isRecord = true) : u.merge (.record []) = u := by
  obtain ⟨fields, rfl⟩ := isRecord_iff.mp h
  rw [merge, mergeFields]

theorem isRecord_put {o : Option Value} : (put o v).isRecord = v.isRecord := by
  cases o with
  | none => rfl
  | some u => exact isRecord_merge

theorem put_of_not_record {o : Option Value}
    (h : v.isRecord = true → ∀ u, o = some u → u.isRecord = false) : put o v = v := by
  cases o with
  | none => rfl
  | some u =>
    refine merge_of_not_record ?_
    cases hv : v.isRecord with
    | false => exact .inr rfl
    | true => exact .inl (h hv u rfl)

theorem mergeFields_cons : mergeFields under ((key, v) :: upper) =
    mergeFields (set key (put (lookup key under) v) under) upper := by
  rw [mergeFields]
  cases lookup key under <;> rfl

theorem nodup_keys_mergeFields (hn : (under.map Prod.fst).Nodup) :
    ((mergeFields under upper).map Prod.fst).Nodup := by
  induction upper generalizing under with
  | nil => simpa only [mergeFields] using hn
  | cons field rest ih =>
    rw [← Prod.eta field, mergeFields_cons]
    exact ih (nodup_keys_set hn)

/-- A field of two merged records: the upper one put over the lower one, if it is there. -/
theorem lookup_mergeFields (hn : (upper.map Prod.fst).Nodup) :
    lookup key (mergeFields under upper) =
      ((lookup key upper).map (put (lookup key under))).or (lookup key under) := by
  induction upper generalizing under with
  | nil => simp [mergeFields, lookup]
  | cons field rest ih =>
    obtain ⟨name, v⟩ := field
    obtain ⟨hname, hrest⟩ := List.nodup_cons.mp hn
    rw [mergeFields_cons, ih hrest, lookup_set, lookup_cons]
    by_cases h : name = key
    · subst h
      -- The name is set once, so what is merged after it does not touch it again.
      have hnone : lookup name rest = none := lookup_eq_none_iff.mpr hname
      simp [hnone]
    · simp [h]

/-! ## One layer at a path -/

/-- A layer leaves a path alone: it has nothing at its end, and only records on the way. -/
def Silent (path : List String) (v : Value) : Prop :=
  v.atPath? path = none ∧
    ∀ way, way <+: path → way ≠ path → ∀ w, v.atPath? way = some w → w.isRecord = true

theorem not_silent_nil : ¬ v.Silent [] := by
  intro h
  simp [Silent] at h

theorem silent_cons_iff : v.Silent (key :: path) ↔
    ∃ fields, v = .record fields ∧ ∀ x, lookup key fields = some x → x.Silent path := by
  constructor
  · rintro ⟨hnone, hway⟩
    obtain ⟨fields, rfl⟩ := isRecord_iff.mp (hway [] List.nil_prefix (by simp) v atPath?_nil)
    refine ⟨fields, rfl, fun x hx => ⟨?_, fun way hprefix hne w hw => ?_⟩⟩
    · simpa [atPath?_record, hx] using hnone
    · refine hway (key :: way) (List.cons_prefix_cons.mpr ⟨rfl, hprefix⟩) (by simpa using hne) w ?_
      simpa [atPath?_record, hx] using hw
  · rintro ⟨fields, rfl, h⟩
    constructor
    · rw [atPath?_record, Option.bind_eq_none_iff]
      exact fun x hx => (h x hx).1
    · intro way hprefix hne w hw
      cases way with
      | nil =>
        obtain rfl := by simpa using hw
        rfl
      | cons name way =>
        obtain ⟨rfl, hway⟩ := List.cons_prefix_cons.mp hprefix
        obtain ⟨_, x, heq, hx, hw⟩ := atPath?_cons_eq_some_iff.mp hw
        cases heq
        exact (h x hx).2 way hway (by simpa using hne) w hw

/-- What a layer gives for a place is put over what lies there. -/
theorem atPath?_merge_of_some (hv : v.Distinct) (h : v.atPath? path = some w) :
    (u.merge v).atPath? path = some (put (u.atPath? path) w) := by
  induction path generalizing u v with
  | nil =>
    obtain rfl := by simpa using h
    rw [atPath?_nil, atPath?_nil, put]
  | cons key path ih =>
    obtain ⟨upper, x, rfl, hx, hw⟩ := atPath?_cons_eq_some_iff.mp h
    cases u with
    | record under =>
      rw [merge, atPath?_record, atPath?_record, lookup_mergeFields hv.nodup_keys, hx]
      cases lookup key under with
      | none => exact hw
      | some y => exact ih (hv.of_lookup hx) hw
    | _ => simp [merge, h, atPath?, put]

theorem atPath?_merge_of_silent (hv : v.Distinct) (h : v.Silent path) :
    (u.merge v).atPath? path = u.atPath? path := by
  induction path generalizing u v with
  | nil => exact absurd h not_silent_nil
  | cons key path ih =>
    obtain ⟨upper, rfl, hsilent⟩ := silent_cons_iff.mp h
    cases u with
    | record under =>
      rw [merge, atPath?_record, atPath?_record, lookup_mergeFields hv.nodup_keys]
      cases hx : lookup key upper with
      | none => rfl
      | some x =>
        cases lookup key under with
        | none => exact (hsilent x hx).1
        | some y => exact ih (hv.of_lookup hx) (hsilent x hx)
    | _ => simpa [merge, atPath?] using h.1

/-- Something other than a record on the way takes away what lies at the end of it. -/
theorem atPath?_merge_of_blocked (hv : v.Distinct) (hnone : v.atPath? path = none)
    (h : ¬ v.Silent path) : (u.merge v).atPath? path = none := by
  induction path generalizing u v with
  | nil => simp at hnone
  | cons key path ih =>
    by_cases hrecords : u.isRecord = true ∧ v.isRecord = true
    · obtain ⟨under, rfl⟩ := isRecord_iff.mp hrecords.1
      obtain ⟨upper, rfl⟩ := isRecord_iff.mp hrecords.2
      -- Only the field of the first name of the way can be what is not left alone.
      obtain ⟨x, hx, hblocked⟩ : ∃ x, lookup key upper = some x ∧ ¬ x.Silent path := by
        rw [silent_cons_iff] at h
        grind
      have hnone : x.atPath? path = none := by simpa [atPath?_record, hx] using hnone
      rw [merge, atPath?_record, lookup_mergeFields hv.nodup_keys, hx]
      cases lookup key under with
      | none => exact hnone
      | some y => exact ih (hv.of_lookup hx) hnone hblocked
    · rwa [merge_of_not_record (by grind)]

theorem Distinct.merge (hu : u.Distinct) (hv : v.Distinct) : (u.merge v).Distinct := by
  intro path fields hat
  cases hw : v.atPath? path with
  | none =>
    by_cases h : v.Silent path
    · rw [atPath?_merge_of_silent hv h] at hat
      exact hu path fields hat
    · rw [atPath?_merge_of_blocked hv hw h] at hat
      cases hat
  | some w =>
    rw [atPath?_merge_of_some hv hw, Option.some.injEq] at hat
    have hrecord : w.isRecord = true := by
      rw [← isRecord_put (o := u.atPath? path), hat]
      rfl
    obtain ⟨upper, rfl⟩ := isRecord_iff.mp hrecord
    cases hunder : u.atPath? path with
    | none =>
      rw [hunder, put, record.injEq] at hat
      exact hat ▸ hv path upper hw
    | some y =>
      rw [hunder, put] at hat
      cases y with
      | record under =>
        rw [Value.merge, record.injEq] at hat
        exact hat ▸ nodup_keys_mergeFields (hu path under hunder)
      | _ =>
        simp only [Value.merge, record.injEq] at hat
        exact hat ▸ hv path upper hw

/-! ## A stack of layers -/

/-- Layers put over each other, the last one on top. -/
def stack (layers : List Value) : Value :=
  layers.foldl merge .null

theorem stack_cons : stack (v :: layers) = layers.foldl merge v := by
  rw [stack, List.foldl_cons, merge_of_not_record (.inl rfl)]

theorem stack_concat : stack (layers ++ [v]) = (stack layers).merge v := by
  simp [stack]

theorem distinct_stack (h : ∀ l ∈ layers, l.Distinct) : (stack layers).Distinct := by
  induction layers using List.reverseRecOn with
  | nil => exact distinct_of_not_record rfl
  | append_singleton layers v ih =>
    rw [stack_concat]
    exact (ih fun l hl => h l (by simp [hl])).merge (h v (by simp))

/-- **The highest layer counts.** If all layers above one leave a path alone, what that layer gives
is put over what the layers below it give. -/
theorem atPath?_stack (hd : ∀ l ∈ top :: above, l.Distinct) (h : top.atPath? path = some w)
    (hs : ∀ l ∈ above, l.Silent path) :
    (stack (below ++ top :: above)).atPath? path = some (put ((stack below).atPath? path) w) := by
  induction above using List.reverseRecOn with
  | nil =>
    rw [stack_concat]
    exact atPath?_merge_of_some (hd top (by simp)) h
  | append_singleton above v ih =>
    have happend : below ++ top :: (above ++ [v]) = (below ++ top :: above) ++ [v] := by simp
    rw [happend, stack_concat, atPath?_merge_of_silent (hd v (by simp)) (hs v (by simp))]
    exact ih (fun l hl => hd l (by grind)) fun l hl => hs l (by simp [hl])

/-- What is no record was put together from nothing: a layer gives it as it is, and the layers above
that one leave its place alone. -/
theorem exists_layer_of_atPath?_stack (hd : ∀ l ∈ layers, l.Distinct)
    (hpath : path ≠ []) (h : (stack layers).atPath? path = some w) (hw : w.isRecord = false) :
    ∃ below top above, layers = below ++ top :: above ∧ top.atPath? path = some w ∧
      ∀ l ∈ above, l.Silent path := by
  induction layers using List.reverseRecOn with
  | nil =>
    cases path with
    | nil => exact absurd rfl hpath
    | cons key path => simp [stack, atPath?] at h
  | append_singleton layers v ih =>
    have hv : v.Distinct := hd v (by simp)
    rw [stack_concat] at h
    cases hx : v.atPath? path with
    | some x =>
      rw [atPath?_merge_of_some hv hx, Option.some.injEq] at h
      have hrecord : x.isRecord = false := by rw [← isRecord_put, h, hw]
      obtain rfl : x = w := by
        rw [← h, put_of_not_record]
        simp [hrecord]
      exact ⟨layers, v, [], rfl, hx, by simp⟩
    | none =>
      by_cases hsilent : v.Silent path
      · rw [atPath?_merge_of_silent hv hsilent] at h
        obtain ⟨below, top, above, rfl, htop, habove⟩ := ih (fun l hl => hd l (by simp [hl])) h
        refine ⟨below, top, above ++ [v], by simp, htop, fun l hl => ?_⟩
        rcases List.mem_append.mp hl with hl | hl
        · exact habove l hl
        · exact List.mem_singleton.mp hl ▸ hsilent
      · rw [atPath?_merge_of_blocked hv hx hsilent] at h
        cases h

end SafeClock.Value
