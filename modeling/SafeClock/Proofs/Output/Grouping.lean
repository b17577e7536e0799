import SafeClock.Output.Text
import SafeClock.Proofs.Text.Decimal

/-!
# Frequencies as they are shown

A frequency is shown with its digits in groups of three. Where the platform could not be put back,
the operator restores it by hand from that text, so the commas must neither cost a digit nor stand
where nobody expects them:

> **groups of three**: a text is the grouped form of some digits exactly if its commas cut it into
> groups of three of them, with a shorter group at most in front (`grouped_eq_iff`).

Digits can be cut in one way only (`IsCut.unique`), so there is one grouped form for each number.
-/

set_option autoImplicit false

namespace SafeClock.Output

variable {c : Char} {digits first first' text : List Char} {others others' : List (List Char)}

/-! ## Cuts by three -/

/-- Digits in groups of three, counted from the right. What is left of them makes up the first
group, which is not empty. -/
structure IsCut (digits first : List Char) (others : List (List Char)) : Prop where
  joined : first ++ others.flatten = digits
  nonempty : 1 ≤ first.length
  at_most : first.length ≤ 3
  full : ∀ group ∈ others, group.length = 3

namespace IsCut

theorem mem {group : List Char} (h : IsCut digits first others) (hgroup : group ∈ first :: others)
    (hc : c ∈ group) : c ∈ digits := by
  rw [← h.joined, ← List.flatten_cons]
  exact List.mem_flatten.mpr ⟨group, hgroup, hc⟩

theorem map_length (h : IsCut digits first others) :
    others.map List.length = List.replicate others.length 3 :=
  List.map_eq_replicate_iff.mpr h.full

theorem length_eq (h : IsCut digits first others) :
    digits.length = first.length + 3 * others.length := by
  rw [← h.joined, List.length_append, List.length_flatten, h.map_length, List.sum_replicate_nat,
    Nat.mul_comm]

/-- The first group is full exactly if no digits are left over. -/
theorem first_full_iff (h : IsCut digits first others) :
    first.length = 3 ↔ digits.length % 3 = 0 := by
  have hlength := h.length_eq
  have hone := h.nonempty
  have hthree := h.at_most
  omega

/-- **One cut.** The number of digits says how long each group is. -/
theorem unique (h : IsCut digits first others) (h' : IsCut digits first' others') :
    first :: others = first' :: others' := by
  have hlengths : first.length = first'.length ∧ others.length = others'.length := by
    have hlength := h.length_eq
    have hlength' := h'.length_eq
    have hbounds := And.intro h.nonempty h.at_most
    have hbounds' := And.intro h'.nonempty h'.at_most
    omega
  refine List.eq_iff_flatten_eq.mpr ⟨?_, ?_⟩
  · rw [List.flatten_cons, List.flatten_cons, h.joined, h'.joined]
  · rw [List.map_cons, List.map_cons, h.map_length, h'.map_length, hlengths.1, hlengths.2]

/-! A digit in front of a cut grows the first group, and opens a new one if that is full. -/

theorem single (c : Char) : IsCut [c] [c] [] :=
  ⟨rfl, Nat.le_refl 1, Nat.le_add_left 1 2, fun _ hgroup => nomatch hgroup⟩

theorem opens (h : IsCut digits first others) (hfull : first.length = 3) :
    IsCut (c :: digits) [c] (first :: others) :=
  ⟨congrArg (c :: ·) h.joined, Nat.le_refl 1, Nat.le_add_left 1 2,
    List.forall_mem_cons.mpr ⟨hfull, h.full⟩⟩

theorem grows (h : IsCut digits first others) (hroom : first.length ≠ 3) :
    IsCut (c :: digits) (c :: first) others :=
  ⟨congrArg (c :: ·) h.joined, Nat.le_add_left 1 _,
    Nat.lt_of_le_of_ne h.at_most hroom, h.full⟩

end IsCut

/-! ## The grouped form -/

theorem intercalate_grows (sep c : Char) (first : List Char) (others : List (List Char)) :
    [sep].intercalate ((c :: first) :: others) = c :: [sep].intercalate (first :: others) := by
  cases others with
  | nil => simp
  | cons group rest => simp [List.intercalate_cons_cons]

/-- The grouped form is made up of a cut, with the commas between its groups. -/
theorem exists_isCut_grouped (hne : digits ≠ []) : ∃ first others,
    IsCut digits first others ∧ grouped digits = [','].intercalate (first :: others) := by
  induction digits with
  | nil => exact absurd rfl hne
  | cons c rest ih =>
    by_cases hrest : rest = []
    · subst hrest
      exact ⟨[c], [], .single c, rfl⟩
    · obtain ⟨first, others, hcut, htext⟩ := ih hrest
      -- A comma is due in front of `rest` exactly if the first group of `rest` is full.
      by_cases hfull : first.length = 3
      · refine ⟨[c], first :: others, hcut.opens hfull, ?_⟩
        rw [grouped, if_pos ⟨hcut.first_full_iff.mp hfull, hrest⟩, htext,
          List.intercalate_cons_cons]
        rfl
      · refine ⟨c :: first, others, hcut.grows hfull, ?_⟩
        rw [grouped, if_neg fun h => hfull (hcut.first_full_iff.mpr h.1), htext,
          intercalate_grows]

/-- **Groups of three.** -/
theorem grouped_eq_iff (hne : digits ≠ []) (hcomma : ',' ∉ digits) :
    grouped digits = text ↔
      ∃ first others, text.splitOn ',' = first :: others ∧ IsCut digits first others := by
  obtain ⟨first, others, hcut, htext⟩ := exists_isCut_grouped hne
  constructor
  · rintro rfl
    refine ⟨first, others, ?_, hcut⟩
    rw [htext, List.splitOn_intercalate ',' (fun group hgroup hmem => ?_) (List.cons_ne_nil _ _)]
    exact hcomma (hcut.mem hgroup hmem)
  · rintro ⟨first', others', hsplit, hcut'⟩
    rw [htext, hcut.unique hcut', ← hsplit, List.intercalate_splitOn]

/-! ## What is read off a shown frequency -/

/-- The pieces of a text are all of it but the separators. -/
theorem flatten_splitOn (sep : Char) (cs : List Char) :
    (cs.splitOn sep).flatten = cs.filter (· ≠ sep) := by
  induction cs with
  | nil => rfl
  | cons c cs ih =>
    obtain ⟨piece, pieces, hpieces⟩ := List.exists_cons_of_ne_nil (List.splitOn_ne_nil sep cs)
    rw [List.splitOn_cons_eq_if_modifyHead]
    by_cases hc : c = sep
    · simp [hc, ih]
    · rw [hpieces] at ih ⊢
      simpa [hc] using ih

/-- Without its commas the grouped form is the digits again. -/
theorem filter_grouped (hne : digits ≠ []) (hcomma : ',' ∉ digits) :
    (grouped digits).filter (· ≠ ',') = digits := by
  obtain ⟨first, others, hsplit, hcut⟩ := (grouped_eq_iff hne hcomma).mp rfl
  rw [← flatten_splitOn, hsplit, List.flatten_cons, hcut.joined]

theorem comma_not_mem_decimal (hz : Nat) : ',' ∉ Text.decimal hz := by
  intro hmem
  exact absurd (Text.isDigit_of_mem_decimal hmem) (by decide)

theorem hertz_eq (hz : Nat) : hertz hz = String.ofList (grouped (Text.decimal hz)) ++ " Hz" :=
  String.ofList_append

theorem hertz_injective : Function.Injective hertz := by
  intro a b h
  have htexts : grouped (Text.decimal a) = grouped (Text.decimal b) := by
    rw [hertz_eq, hertz_eq, String.append_left_inj] at h
    exact String.ofList_injective h
  have hdigits : Text.decimal a = Text.decimal b := by
    rw [← filter_grouped (Text.decimal_ne_nil a) (comma_not_mem_decimal a), htexts,
      filter_grouped (Text.decimal_ne_nil b) (comma_not_mem_decimal b)]
  rw [← Text.ofDigits_decimal a, hdigits, Text.ofDigits_decimal]

/-- **A shown frequency tells the frequency.** Two frequencies are never shown alike. The text shown
for a frequency is the one that ends in the unit, is the frequency in decimal but for its commas, and
is cut by these into a first group of one to three digits and groups of three digits behind it. -/
theorem hertz_groups_by_three :
    Function.Injective hertz ∧ ∀ (hz : Nat) (s : String), hertz hz = s ↔
      ∃ text first others, s = text ++ " Hz" ∧
        String.ofList (text.toList.filter (· ≠ ',')) = toString hz ∧
        text.toList.splitOn ',' = first :: others ∧
        1 ≤ first.length ∧ first.length ≤ 3 ∧ (∀ group ∈ others, group.length = 3) ∧
        ∀ group ∈ first :: others, ∀ c ∈ group, c.isDigit = true := by
  refine ⟨hertz_injective, fun hz s => ?_⟩
  have hne := Text.decimal_ne_nil hz
  have hcomma := comma_not_mem_decimal hz
  rw [Nat.toString_eq_ofList_toDigits]
  constructor
  · rintro rfl
    obtain ⟨first, others, hsplit, hcut⟩ := (grouped_eq_iff hne hcomma).mp rfl
    refine ⟨String.ofList (grouped (Text.decimal hz)), first, others, hertz_eq hz, ?_, ?_,
      hcut.nonempty, hcut.at_most, hcut.full, ?_⟩
    · rw [String.toList_ofList, filter_grouped hne hcomma]
      rfl
    · rw [String.toList_ofList, hsplit]
    · intro group hgroup c hc
      exact Text.isDigit_of_mem_decimal (hcut.mem hgroup hc)
  · rintro ⟨text, first, others, rfl, hdigits, hsplit, hone, hthree, hfull, -⟩
    have hjoined : first ++ others.flatten = Text.decimal hz := by
      rw [← List.flatten_cons, ← hsplit, flatten_splitOn]
      exact String.ofList_injective hdigits
    have hgrouped : grouped (Text.decimal hz) = text.toList :=
      (grouped_eq_iff hne hcomma).mpr ⟨first, others, hsplit, hjoined, hone, hthree, hfull⟩
    rw [hertz_eq, hgrouped, String.ofList_toList]

/-- The last word is shown with two digits in front of six groups of three, and the word before it is
shown otherwise. -/
theorem hertz_groups_by_three_at_last_word :
    hertz 18446744073709551615 = "18,446,744,073,709,551,615 Hz" ∧
      hertz 18446744073709551614 ≠ "18,446,744,073,709,551,615 Hz" := by
  obtain ⟨hinjective, hshown⟩ := hertz_groups_by_three
  let first : List Char := ['1', '8']
  let others : List (List Char) := [['4', '4', '6'], ['7', '4', '4'], ['0', '7', '3'],
    ['7', '0', '9'], ['5', '5', '1'], ['6', '1', '5']]
  have hsplit : "18,446,744,073,709,551,615".toList.splitOn ',' = first :: others := by decide
  have hlast : hertz 18446744073709551615 = "18,446,744,073,709,551,615 Hz" :=
    (hshown _ _).mpr ⟨_, first, others, rfl, by decide, hsplit, by decide, by decide, by decide,
      by simp [first, others]⟩
  have hdiffer : hertz 18446744073709551614 ≠ hertz 18446744073709551615 :=
    hinjective.ne (by decide)
  exact ⟨hlast, hlast ▸ hdiffer⟩

end SafeClock.Output
