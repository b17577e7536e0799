import Mathlib.Order.Bounds.Basic
import SafeClock.Proofs.Search.Walk

/-!
# What the bounds know

A search measures frequency after frequency and keeps two numbers of it. While it halves, nothing
else is worth keeping:

> **the bounds are knowledge**: the lower bound is the highest frequency that passed, or the floor,
> and the upper bound is the lowest that failed, or the ceiling (`Known`).

The candidate lies between the bounds, so one result replaces a bound and leaves the other alone.
This holds up to the first state whose bounds are close, and there it stops. A step of the walk
makes the next candidate its own upper bound before anything was measured at it (`Leg.not_known`).
-/

set_option autoImplicit false

namespace SafeClock.Search

variable {p : Parameters} {s s' u : State} {q : Probe} {qs : List Probe} {clean : Bool}

/-- The frequencies at which the results were clean, or at which they were not. -/
def probed (clean : Bool) (qs : List Probe) : Set Nat :=
  {f | ∃ q ∈ qs, q.isClean = clean ∧ q.frequency = f}

theorem probed_nil (clean : Bool) : probed clean [] = ∅ := by
  ext f
  simp [probed]

theorem mem_probed_concat {f : Nat} :
    f ∈ probed clean (qs ++ [q]) ↔
      (q.isClean = clean ∧ q.frequency = f) ∨ f ∈ probed clean qs := by
  simp [probed, or_and_right, exists_or, or_comm]

theorem probed_concat_self (h : q.isClean = clean) :
    probed clean (qs ++ [q]) = insert q.frequency (probed clean qs) := by
  ext f
  rw [mem_probed_concat, Set.mem_insert_iff, and_iff_right h, eq_comm]

theorem probed_concat_of_ne (h : q.isClean ≠ clean) :
    probed clean (qs ++ [q]) = probed clean qs := by
  ext f
  rw [mem_probed_concat, or_iff_right fun hq => h hq.1]

/-- The bounds of a state say of some results all that they can. -/
structure Known (p : Parameters) (qs : List Probe) (s : State) : Prop where
  lower_greatest : IsGreatest (insert p.band.low (probed true qs)) s.lower
  upper_least : IsLeast (insert p.band.high (probed false qs)) s.upper

theorem known_initial (p : Parameters) : Known p [] (State.initial p) := by
  constructor <;> rw [probed_nil, insert_empty_eq]
  · exact isGreatest_singleton
  · exact isLeast_singleton

/-- **A step of the halving moves one bound**, to the candidate, which lies between the two. -/
theorem Known.next (hk : Known p qs s) (hs : s.Enclosed p) (hq : Wide p Located s q)
    (ha : s.advance p q = .proceed s') : Known p (qs ++ [q]) s' := by
  obtain ⟨hlower, hupper⟩ := hk
  have hfreq : q.frequency = s.current := hq.allowed
  cases State.move_of_advance ha with
  | raise hc =>
    refine ⟨?_, by rwa [probed_concat_of_ne (by simp [hc])]⟩
    rw [probed_concat_self hc, Set.insert_comm, hfreq]
    have hmax := hlower.insert s.current
    rwa [max_eq_left hs.lower_le_current] at hmax
  | sink hc =>
    refine ⟨by rwa [probed_concat_of_ne (by simp [hc])], ?_⟩
    rw [probed_concat_self hc, Set.insert_comm, hfreq]
    have hmin := hupper.insert s.current
    rwa [min_eq_left hs.current_le_upper] at hmin
  | descend _ hclose => exact absurd hclose (Nat.not_le_of_lt hq.gap)

/-- **Halving keeps all that was learnt.** -/
theorem Leg.known (hp : p.Valid) (h : Leg p (Wide p Located) (State.initial p) qs u) :
    Known p qs u :=
  h.keeps_history (fun _ _ _ _ hl hk hq ha =>
    hk.next (hl.enclosed (State.enclosed_initial hp)) hq ha) (known_initial p)

/-- **The walk forgets.** After a step of it the upper bound is a candidate that was not measured,
and below all that failed. -/
theorem Leg.not_known (hp : p.Valid) {bs ws : List Probe} {m : State}
    (hb : Leg p (Wide p Located) (State.initial p) bs m)
    (hw : Leg p (Close p Located) m (q :: ws) u)
    (h : Leg p Located (State.initial p) (bs ++ q :: ws) u) : ¬Known p (bs ++ q :: ws) u := by
  intro hk
  have hs := State.enclosed_initial hp
  have hbelow := (h.below_failed hp.2.1 hs (poised_initial p)).2
  have hmem := hk.upper_least.1
  rw [hw.stepped.upper_eq] at hmem
  rcases hmem with hhigh | ⟨r, hr, hc, hf⟩
  · have hlt := hbelow q (List.mem_append_right _ List.mem_cons_self)
      (hw.failed q List.mem_cons_self)
    have hle := (hb.enclosed hs).current_le_high
    -- The walk began with a failure, which was in the band.
    cases hw with
    | step hq =>
      rw [hq.allowed, hhigh] at hlt
      exact absurd hle (Nat.not_le_of_lt hlt)
  · have hlt := hbelow r hr hc
    rw [hf] at hlt
    exact Nat.lt_irrefl _ hlt

/-- **How long the bounds are knowledge.** At every state that is reached through states with wide
bounds alone, the first state with close bounds included, and at no state after it. Every search
that ends has come to that first state. -/
theorem known_iff_of_search (hp : p.Valid) :
    (∀ qs s, Leg p Located (State.initial p) qs s →
      (Known p qs s ↔ Leg p (Wide p Located) (State.initial p) qs s)) ∧
    ∀ qs t, Run p Located (State.initial p) qs t →
      ∃ bs ws m, qs = bs ++ ws ∧ Leg p (Wide p Located) (State.initial p) bs m ∧
        m.inBisection p = false ∧ Known p bs m := by
  constructor
  · intro qs s h
    refine ⟨fun hk => ?_, Leg.known hp⟩
    obtain ⟨bs, ws, m, rfl, hb, hw⟩ := h.split
    cases ws with
    | nil =>
      cases hw with
      | rest => rwa [List.append_nil]
    | cons q ws => exact absurd hk (hb.not_known hp hw h)
  · intro qs t h
    obtain ⟨bs, ws, m, rfl, hb, hgap, _⟩ := h.split (State.enclosed_initial hp)
    exact ⟨bs, ws, m, rfl, hb, decide_eq_false (Nat.not_lt_of_le hgap), hb.known hp⟩

/-- The halving of a search in a band of 100 Hz, down to a gap of 13 Hz: of what was measured,
162 Hz is the highest that passed and 175 Hz the lowest that failed. -/
theorem known_iff_of_search_at_168 :
    let p : Parameters := ⟨⟨100, 200⟩, 20, 3⟩
    let qs : List Probe := [⟨200, 3, 3⟩, ⟨150, 0, 3⟩, ⟨175, 2, 3⟩, ⟨162, 0, 3⟩]
    p.Valid ∧ Leg p Located (State.initial p) qs ⟨168, 162, 175, 175, 4⟩ ∧
      IsGreatest (insert 100 (probed true qs)) 162 ∧
      IsLeast (insert 200 (probed false qs)) 175 := by
  intro p qs
  have hp : p.Valid := by decide
  have hfirst : (State.initial p).advance p ⟨200, 3, 3⟩ = .proceed ⟨150, 100, 200, 200, 1⟩ := by
    decide
  have hsecond : State.advance p ⟨150, 100, 200, 200, 1⟩ ⟨150, 0, 3⟩ =
      .proceed ⟨175, 150, 200, 200, 2⟩ := by
    decide
  have hthird : State.advance p ⟨175, 150, 200, 200, 2⟩ ⟨175, 2, 3⟩ =
      .proceed ⟨162, 150, 175, 175, 3⟩ := by
    decide
  have hfourth : State.advance p ⟨162, 150, 175, 175, 3⟩ ⟨162, 0, 3⟩ =
      .proceed ⟨168, 162, 175, 175, 4⟩ := by
    decide
  have hwide : Leg p (Wide p Located) (State.initial p) qs ⟨168, 162, 175, 175, 4⟩ := by
    refine .step ⟨by decide, rfl⟩ hfirst ?_
    refine .step ⟨by decide, rfl⟩ hsecond ?_
    refine .step ⟨by decide, rfl⟩ hthird ?_
    exact .step ⟨by decide, rfl⟩ hfourth .rest
  have hleg := hwide.mono fun _ _ hq => hq.allowed
  have hknown := ((known_iff_of_search hp).1 qs _ hleg).mpr hwide
  exact ⟨hp, hleg, hknown.lower_greatest, hknown.upper_least⟩

end SafeClock.Search
