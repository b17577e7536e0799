import Mathlib.Data.Finset.Card
import SafeClock.Proofs.Interrupt.Verdict
import SafeClock.Proofs.Text.ByteOrder

/-!
# What a table stands for

A table is built from entries one after the other, and entries of one event are put together. What
comes of it does not depend on how the entries were cut up:

> **a table is its keys and its relation**: two tables that list the same events, and allow the same
> pairs, are equal (`eq_of_keys_of_allows`).

The keys count beside the relation. An event with an empty list of successors is an entry, which
allows nothing, and the table is not empty with it. A verdict sees the relation only, and the more
the relation allows, the later a trace breaks it (`Within.breach_le`).
-/

set_option autoImplicit false

namespace SafeClock

/-! ## Sets of events -/

theorem nodup_of_increasing {es : List Event} (h : es.Pairwise (· < ·)) : es.Nodup := by
  refine h.imp ?_
  intro a b hlt heq
  subst heq
  exact String.lt_irrefl a hlt

namespace EventSet

variable {s t : EventSet} {e : Event} {es : List Event}

theorem mem_ofList : e ∈ (ofList es).toList ↔ e ∈ es := by
  rw [ofList, mem_insertAll]
  simp [empty]

/-- **A set is its members.** -/
theorem eq_of_mem_iff (h : ∀ e, e ∈ s.toList ↔ e ∈ t.toList) : s = t := by
  obtain ⟨xs, hxs⟩ := s
  obtain ⟨ys, hys⟩ := t
  have hperm : xs.Perm ys :=
    (List.perm_ext_iff_of_nodup (nodup_of_increasing hxs) (nodup_of_increasing hys)).mpr h
  obtain rfl : xs = ys :=
    hperm.eq_of_pairwise (fun a b _ _ hab hba => absurd hba (String.lt_asymm hab)) hxs hys
  rfl

end EventSet

/-! ## Tables -/

namespace TransitionTable

variable {t u : TransitionTable} {a b e k : Event} {next : List Event} {s : EventSet}
  {entries : List (Event × EventSet)} {pairs : List (Event × List Event)}

/-- The events that have an entry. -/
def keys (t : TransitionTable) : List Event := t.entries.map Prod.fst

theorem keys_nodup (t : TransitionTable) : t.keys.Nodup :=
  nodup_of_increasing (List.pairwise_map.mpr t.sorted)

theorem successors_of_mem (h : (k, s) ∈ t.entries) : t.successors k = s.toList := by
  unfold successors
  cases hfind : t.entries.find? (fun entry => entry.1 == k) with
  | none => exact absurd (List.find?_eq_none.mp hfind _ h) (by simp)
  | some found =>
    obtain ⟨k', s'⟩ := found
    obtain rfl : k' = k := by simpa using List.find?_some hfind
    -- No two entries have one key.
    obtain ⟨-, rfl⟩ := Prod.mk.inj
      (List.inj_on_of_nodup_map t.keys_nodup (List.mem_of_find?_eq_some hfind) h rfl)
    rfl

theorem successors_of_not_mem (h : k ∉ t.keys) : t.successors k = [] := by
  unfold successors
  cases hfind : t.entries.find? (fun entry => entry.1 == k) with
  | none => rfl
  | some found =>
    obtain rfl : found.1 = k := by simpa using List.find?_some hfind
    exact absurd (List.mem_map_of_mem (List.mem_of_find?_eq_some hfind)) h

theorem exists_entry (h : k ∈ t.keys) : ∃ s, (k, s) ∈ t.entries := by
  obtain ⟨⟨k, s⟩, hs, rfl⟩ := List.mem_map.mp h
  exact ⟨s, hs⟩

theorem successors_pairwise (t : TransitionTable) (e : Event) :
    (t.successors e).Pairwise (· < ·) := by
  by_cases h : e ∈ t.keys
  · obtain ⟨s, hs⟩ := exists_entry h
    rw [successors_of_mem hs]
    exact s.sorted
  · rw [successors_of_not_mem h]
    exact .nil

theorem allows_of_mem (h : (a, s) ∈ t.entries) : t.allows a b = true ↔ b ∈ s.toList := by
  rw [allows, successors_of_mem h, List.contains_iff_mem]

theorem allows_iff : t.allows a b = true ↔ ∃ s, (a, s) ∈ t.entries ∧ b ∈ s.toList := by
  by_cases h : a ∈ t.keys
  · obtain ⟨s, hs⟩ := exists_entry h
    rw [allows_of_mem hs]
    constructor
    · intro hb
      exact ⟨s, hs, hb⟩
    · rintro ⟨s', hs', hb⟩
      exact (allows_of_mem hs).mp ((allows_of_mem hs').mpr hb)
  · rw [allows, successors_of_not_mem h]
    simp only [List.contains_nil, Bool.false_eq_true, false_iff]
    rintro ⟨s, hs, -⟩
    exact h (List.mem_map_of_mem hs)

/-- The pairs that a list of entries allows, whatever the order of its entries. -/
def Lists (entries : List (Event × EventSet)) (a b : Event) : Prop :=
  ∃ s, (a, s) ∈ entries ∧ b ∈ s.toList

theorem lists_cons_iff :
    Lists ((k, s) :: entries) a b ↔ (a = k ∧ b ∈ s.toList) ∨ Lists entries a b := by
  simp only [Lists, List.mem_cons, Prod.mk.injEq]
  grind

theorem lists_addSorted_iff :
    Lists (addSorted e next entries) a b ↔ (a = e ∧ b ∈ next) ∨ Lists entries a b := by
  induction entries with
  | nil => rw [addSorted, lists_cons_iff, EventSet.mem_ofList]
  | cons entry rest ih =>
    obtain ⟨k, s⟩ := entry
    unfold addSorted
    split
    · rw [lists_cons_iff, EventSet.mem_ofList]
    · split
      · next hek =>
        subst hek
        rw [lists_cons_iff, lists_cons_iff, EventSet.mem_insertAll]
        grind
      · rw [lists_cons_iff, ih, lists_cons_iff]
        grind

theorem mem_keys_addSorted_iff :
    k ∈ (addSorted e next entries).map Prod.fst ↔ k = e ∨ k ∈ entries.map Prod.fst := by
  induction entries with
  | nil => simp [addSorted]
  | cons entry rest ih =>
    unfold addSorted
    split
    · simp
    · split
      · next hek => simp [hek]
      · rw [List.map_cons, List.mem_cons, ih, List.map_cons, List.mem_cons]
        exact or_left_comm

theorem allows_add :
    (t.add e next).allows a b = true ↔ (a = e ∧ b ∈ next) ∨ t.allows a b = true := by
  rw [allows_iff, allows_iff]
  exact lists_addSorted_iff

theorem mem_keys_add : k ∈ (t.add e next).keys ↔ k = e ∨ k ∈ t.keys :=
  mem_keys_addSorted_iff

/-! ### Tables made of entries -/

/-- The entries say that an event may come directly after another. -/
def Listed (pairs : List (Event × List Event)) (a b : Event) : Prop :=
  ∃ pair ∈ pairs, pair.1 = a ∧ b ∈ pair.2

theorem allows_foldl_add :
    (pairs.foldl (fun t pair => t.add pair.1 pair.2) t).allows a b = true ↔
      Listed pairs a b ∨ t.allows a b = true := by
  induction pairs generalizing t with
  | nil => simp [Listed]
  | cons pair rest ih =>
    rw [List.foldl_cons, ih, allows_add]
    simp only [Listed, List.mem_cons, exists_eq_or_imp]
    grind

theorem mem_keys_foldl_add :
    k ∈ (pairs.foldl (fun t pair => t.add pair.1 pair.2) t).keys ↔
      k ∈ pairs.map Prod.fst ∨ k ∈ t.keys := by
  induction pairs generalizing t with
  | nil => simp
  | cons pair rest ih =>
    rw [List.foldl_cons, ih, mem_keys_add, List.map_cons, List.mem_cons]
    grind

theorem allows_ofList : (ofList pairs).allows a b = true ↔ Listed pairs a b := by
  rw [ofList, allows_foldl_add]
  simp [allows_iff, empty]

theorem mem_keys_ofList : k ∈ (ofList pairs).keys ↔ k ∈ pairs.map Prod.fst := by
  rw [ofList, mem_keys_foldl_add]
  simp [keys, empty]

/-- Entries of one event that all have the same successors list these. -/
theorem successors_ofList (h : (e, next) ∈ pairs)
    (hsame : ∀ pair ∈ pairs, pair.1 = e → pair.2 = next) :
    (ofList pairs).successors e = (EventSet.ofList next).toList := by
  have heq : (⟨_, successors_pairwise (ofList pairs) e⟩ : EventSet) = EventSet.ofList next := by
    refine EventSet.eq_of_mem_iff fun b => ?_
    have hb : b ∈ (ofList pairs).successors e ↔ (ofList pairs).allows e b = true :=
      List.contains_iff_mem.symm
    rw [hb, allows_ofList, EventSet.mem_ofList]
    constructor
    · rintro ⟨pair, hpair, he, hmem⟩
      exact hsame pair hpair he ▸ hmem
    · intro hmem
      exact ⟨(e, next), h, rfl, hmem⟩
  exact congrArg EventSet.toList heq

theorem size_ofList : (ofList pairs).size = (pairs.map Prod.fst).toFinset.card := by
  have hkeys : (pairs.map Prod.fst).toFinset = (ofList pairs).keys.toFinset := by
    ext k
    rw [List.mem_toFinset, List.mem_toFinset, mem_keys_ofList]
  rw [hkeys, List.toFinset_card_of_nodup (keys_nodup _), keys, List.length_map, size]

/-- An entry of a table has a namesake in every table with the same keys, and if the two allow the
same pairs, the two entries are the same. -/
theorem mem_entries_of_allows (hkeys : ∀ k, k ∈ t.keys ↔ k ∈ u.keys)
    (hallows : ∀ a b, t.allows a b = true ↔ u.allows a b = true) (hs : (k, s) ∈ t.entries) :
    (k, s) ∈ u.entries := by
  obtain ⟨⟨k', s'⟩, hs', rfl⟩ : ∃ entry ∈ u.entries, entry.1 = k :=
    List.mem_map.mp ((hkeys k).mp (List.mem_map_of_mem hs))
  have hmem : ∀ e, e ∈ s.toList ↔ e ∈ s'.toList := by
    intro e
    have hboth := hallows k' e
    rw [allows_of_mem hs, allows_of_mem hs'] at hboth
    simpa using hboth
  rwa [EventSet.eq_of_mem_iff hmem]

/-- **A table is its keys and its relation.** -/
theorem eq_of_keys_of_allows (hkeys : ∀ k, k ∈ t.keys ↔ k ∈ u.keys)
    (hallows : ∀ a b, t.allows a b = true ↔ u.allows a b = true) : t = u := by
  have hperm : t.entries.Perm u.entries := by
    refine (List.perm_ext_iff_of_nodup t.keys_nodup.of_map u.keys_nodup.of_map).mpr fun entry => ?_
    exact ⟨mem_entries_of_allows hkeys hallows,
      mem_entries_of_allows (fun k => (hkeys k).symm) fun a b => (hallows a b).symm⟩
  have hentries : t.entries = u.entries :=
    hperm.eq_of_pairwise (fun x y _ _ hxy hyx => absurd hyx (String.lt_asymm hxy)) t.sorted u.sorted
  obtain ⟨xs, hxs⟩ := t
  obtain ⟨ys, hys⟩ := u
  obtain rfl : xs = ys := hentries
  rfl

/-- A table is made of its own entries. -/
theorem ofList_entries (t : TransitionTable) :
    ofList (t.entries.map fun entry => (entry.1, entry.2.toList)) = t := by
  apply eq_of_keys_of_allows
  · intro k
    rw [mem_keys_ofList, List.map_map]
    rfl
  · intro a b
    rw [allows_ofList, allows_iff, Listed]
    constructor
    · rintro ⟨_, hpair, rfl, hb⟩
      obtain ⟨entry, hentry, rfl⟩ := List.mem_map.mp hpair
      exact ⟨entry.2, hentry, hb⟩
    · rintro ⟨s, hs, hb⟩
      exact ⟨_, List.mem_map_of_mem hs, rfl, hb⟩

/-! ### Larger relations -/

/-- Every pair that the one table allows, the other allows too. -/
def Within (t u : TransitionTable) : Prop :=
  ∀ a b, t.allows a b = true → u.allows a b = true

section traces

open Trace

variable {es : List Event} {c d : Event} {i j : Nat}

theorem Within.ordered (h : Within t u) (ho : Ordered t es) : Ordered u es := by
  intro i a b hab
  exact h a b (ho i a b hab)

/-- A larger relation is not broken before a smaller one is. -/
theorem Within.breach_le (h : Within t u) (hi : FirstBreach t es i a b)
    (hj : FirstBreach u es j c d) : i ≤ j := by
  by_contra hlt
  have hallowed := hi.earlier j (Nat.lt_of_not_le hlt) c d hj.adjacent
  have hforbidden := hj.forbidden
  rw [h c d hallowed] at hforbidden
  cases hforbidden

/-- **Tables denote relations, and a larger relation is never stricter.** The table of a list of
entries allows exactly what the entries list. It depends on no more than that and the events that
have an entry, and it has one entry for each of them; the successors of an event come in the order
of their bytes. If one table allows all that another allows, a trace that is in order under the
other is in order under the one, and where both find a breach, the first breach of the one is not
before that of the other. -/
theorem denotes_relation :
    (∀ pairs a b, (ofList pairs).allows a b = true ↔ Listed pairs a b) ∧
    (∀ pairs pairs' : List (Event × List Event),
      (∀ k, k ∈ pairs.map Prod.fst ↔ k ∈ pairs'.map Prod.fst) →
      (∀ a b, Listed pairs a b ↔ Listed pairs' a b) → ofList pairs = ofList pairs') ∧
    (∀ pairs, (ofList pairs).size = (pairs.map Prod.fst).toFinset.card) ∧
    (∀ pairs a, (∀ b, b ∈ (ofList pairs).successors a ↔ Listed pairs a b) ∧
      ((ofList pairs).successors a).Pairwise fun b c => Text.bytes b < Text.bytes c) ∧
    ∀ t u es, Within t u →
      (verdict t es = .correct → verdict u es = .correct) ∧
      ∀ a b c d, verdict t es = .violation a b → verdict u es = .violation c d →
        ∃ i j, FirstBreach t es i a b ∧ FirstBreach u es j c d ∧ i ≤ j := by
  refine ⟨fun pairs a b => allows_ofList, fun pairs pairs' hkeys hlisted => ?_,
    fun pairs => size_ofList, fun pairs a => ⟨fun b => ?_, ?_⟩,
    fun t u es h => ⟨fun hcorrect => ?_, fun a b c d ht hu => ?_⟩⟩
  · refine eq_of_keys_of_allows (fun k => ?_) fun a b => ?_
    · rw [mem_keys_ofList, mem_keys_ofList, hkeys]
    · rw [allows_ofList, allows_ofList, hlisted]
  · rw [← allows_ofList, allows, List.contains_iff_mem]
  · exact (successors_pairwise _ a).imp Text.bytes_lt
  · rw [verdict_eq_correct_iff] at hcorrect ⊢
    exact h.ordered hcorrect
  · obtain ⟨i, hi⟩ := verdict_eq_violation_iff.mp ht
    obtain ⟨j, hj⟩ := verdict_eq_violation_iff.mp hu
    exact ⟨i, j, hi, hj, h.breach_le hi hj⟩

/-- The same entries in another order, cut up in another way and in part said twice, make the same
table. With one more entry the table lets a trace pass the place that it was stopped at before, up to
an event that neither lets follow. -/
theorem denotes_relation_of_split_entries :
    let pairs := [("A", ["B", "A"]), ("→", []), ("A", ["ß", "→"])]
    let pairs' := [("→", []), ("A", ["→", "B", "ß"]), ("A", ["A", "B"])]
    let t := ofList pairs
    let u := ofList (("B", ["A"]) :: pairs)
    let es := ["A", "B", "A", "C", "A"]
    t = ofList pairs' ∧ t.size = 2 ∧ t.successors "A" = ["A", "B", "ß", "→"] ∧ Within t u ∧
      verdict t es = .violation "B" "A" ∧ verdict u es = .violation "A" "C" ∧
      ∃ i j, FirstBreach t es i "B" "A" ∧ FirstBreach u es j "A" "C" ∧ i ≤ j := by
  intro pairs pairs' t u es
  obtain ⟨hallows, heq, hsize, -, hmore⟩ := denotes_relation
  have hkeys : ∀ k, k ∈ pairs.map Prod.fst ↔ k ∈ pairs'.map Prod.fst := by
    intro k
    simp only [pairs, pairs', List.map_cons, List.map_nil, List.mem_cons, List.not_mem_nil]
    grind
  have hlisted : ∀ a b, Listed pairs a b ↔ Listed pairs' a b := by
    intro a b
    simp only [pairs, pairs', Listed, List.mem_cons, List.not_mem_nil, exists_eq_or_imp]
    grind
  have hwithin : Within t u := by
    intro a b hab
    obtain ⟨pair, hpair, hb⟩ := (hallows pairs a b).mp hab
    exact (hallows _ a b).mpr ⟨pair, List.mem_cons_of_mem _ hpair, hb⟩
  have ht : verdict t es = .violation "B" "A" := by decide
  have hu : verdict u es = .violation "A" "C" := by decide
  exact ⟨heq pairs pairs' hkeys hlisted, (hsize pairs).trans (by decide), by decide, hwithin, ht,
    hu, (hmore t u es hwithin).2 _ _ _ _ ht hu⟩

end traces

end TransitionTable

end SafeClock
