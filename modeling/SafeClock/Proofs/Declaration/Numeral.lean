import SafeClock.Declaration
import SafeClock.Proofs.Text.Blank
import SafeClock.Proofs.Text.Decimal

/-!
# The literal of a declaration

A literal is read without its suffix letters, with or without a plus sign, and with any number of
leading zeros. So many literals stand for one frequency, and one of them is what would be written
for it:

> **the canonical literal** of a frequency is the one without a sign, a suffix or a zero in front
> (`Numeral.eq_decimal_iff`).

No numeral holds a blank, a `;` or a line feed (`IsNumeric`), which is why a line can be cut at one
and put together with another.
-/

set_option autoImplicit false

namespace SafeClock.Declaration

open SafeClock.Text

variable {literal : List Char} {hz : Nat} {c : Char}

/-- A literal that stands for a frequency: digits, with at most a plus sign before them and any
number of suffix letters behind them. -/
def Numeral (literal : List Char) (hz : Nat) : Prop :=
  ∃ sign digits suffix, literal = sign ++ digits ++ suffix ∧ IsSign sign ∧ digits ≠ [] ∧
    (∀ c ∈ digits, c.isDigit = true) ∧ (∀ c ∈ suffix, isSuffix c = true) ∧
    ofDigits digits = hz ∧ hz < frequencyLimit

theorem isSuffix_of_isDigit (h : c.isDigit = true) : isSuffix c = false := by
  rw [Bool.eq_false_iff]
  intro hs
  simp only [isSuffix, Bool.or_eq_true, beq_iff_eq] at hs
  rcases hs with ((rfl | rfl) | rfl) | rfl <;> exact absurd h (by decide)

theorem isSuffix_of_mem_sign {sign : List Char} (h : IsSign sign) (hc : c ∈ sign) :
    isSuffix c = false := by
  rcases h with rfl | rfl
  · exact absurd hc List.not_mem_nil
  · obtain rfl := List.mem_singleton.mp hc
    rfl

theorem frequency?_eq_some_iff : frequency? literal = some hz ↔ Numeral literal hz := by
  rw [frequency?, readWord?_eq_some_iff]
  constructor
  · rintro ⟨sign, digits, heq, hsign, hne, hd, hv, hlt⟩
    obtain ⟨suffix, hl, hs⟩ := exists_dropEndWhile isSuffix literal
    rw [heq] at hl
    exact ⟨sign, digits, suffix, hl, hsign, hne, hd, hs, hv, hlt⟩
  · rintro ⟨sign, digits, suffix, rfl, hsign, hne, hd, hs, hv, hlt⟩
    refine ⟨sign, digits, ?_, hsign, hne, hd, hv, hlt⟩
    rw [dropEndWhile_append_of_pos hs]
    refine dropEndWhile_of_forall_neg fun c hc => ?_
    rcases List.mem_append.mp hc with hc | hc
    · exact isSuffix_of_mem_sign hsign hc
    · exact isSuffix_of_isDigit (hd c hc)

/-- A character that can stand in a numeral. -/
def IsNumeric (c : Char) : Prop := c = '+' ∨ c.isDigit = true ∨ isSuffix c = true

theorem Numeral.isNumeric (h : Numeral literal hz) (hc : c ∈ literal) : IsNumeric c := by
  obtain ⟨sign, digits, suffix, rfl, hsign, -, hd, hs, -, -⟩ := h
  rcases List.mem_append.mp hc with hc | hc
  · rcases List.mem_append.mp hc with hc | hc
    · rcases hsign with rfl | rfl
      · exact absurd hc List.not_mem_nil
      · exact .inl (List.mem_singleton.mp hc)
    · exact .inr (.inl (hd c hc))
  · exact .inr (.inr (hs c hc))

theorem Numeral.ne_nil (h : Numeral literal hz) : literal ≠ [] := by
  obtain ⟨sign, digits, suffix, rfl, -, hne, -⟩ := h
  simp [hne]

theorem Numeral.lt_limit (h : Numeral literal hz) : hz < frequencyLimit := by
  obtain ⟨sign, digits, suffix, -, -, -, -, -, -, hlt⟩ := h
  exact hlt

theorem IsNumeric.toNat_lt (h : IsNumeric c) : 0x21 ≤ c.toNat ∧ c.toNat ≤ 0x7E := by
  rcases h with rfl | h | h
  · decide
  · obtain ⟨hlow, hhigh⟩ : 48 ≤ c.toNat ∧ c.toNat ≤ 57 := Char.isDigit_iff_toNat.mp h
    omega
  · simp only [isSuffix, Bool.or_eq_true, beq_iff_eq] at h
    rcases h with ((rfl | rfl) | rfl) | rfl <;> decide

theorem IsNumeric.isBlank (h : IsNumeric c) : isBlank c = false := by
  obtain ⟨hlow, hhigh⟩ := h.toNat_lt
  rw [Bool.eq_false_iff]
  simp only [Text.isBlank, ne_eq, Bool.or_eq_true, Bool.and_eq_true, decide_eq_true_eq, beq_iff_eq]
  omega

/-- Neither a trim nor the search for a `;` stops inside a numeral. -/
theorem IsNumeric.solid (h : IsNumeric c) : Text.isBlank c = false ∧ c ≠ ';' := by
  refine ⟨h.isBlank, ?_⟩
  rintro rfl
  rcases h with h | h | h <;> exact absurd h (by decide)

theorem numeral_decimal (h : hz < frequencyLimit) : Numeral (decimal hz) hz :=
  ⟨[], decimal hz, [], by simp, .inl rfl, decimal_ne_nil hz, fun _ => isDigit_of_mem_decimal,
    nofun, ofDigits_decimal hz, h⟩

/-- No sign, no zero in front of another digit, and no suffix. -/
def IsCanonical (literal : List Char) : Prop :=
  '+' ∉ literal ∧ (literal.head? = some '0' → literal = ['0']) ∧ ∀ c ∈ literal, isSuffix c = false

/-- **Of all literals for a number, the canonical one is written.** -/
theorem Numeral.eq_decimal_iff (h : Numeral literal hz) :
    literal = decimal hz ↔ IsCanonical literal := by
  obtain ⟨sign, digits, suffix, rfl, hsign, hne, hd, hs, hv, -⟩ := h
  constructor
  · intro heq
    rw [heq]
    refine ⟨fun hmem => ?_, fun hzero => ?_, fun c hc => ?_⟩
    · exact absurd (isDigit_of_mem_decimal hmem) (by decide)
    · rcases Nat.eq_zero_or_pos hz with rfl | hpos
      · rfl
      · exact absurd hzero (head?_decimal_ne hpos)
    · exact isSuffix_of_isDigit (isDigit_of_mem_decimal hc)
  · rintro ⟨hplus, hzero, hsuffix⟩
    obtain rfl : sign = [] := by
      rcases hsign with rfl | rfl
      · rfl
      · exact absurd (by simp) hplus
    obtain rfl : suffix = [] := by
      refine List.eq_nil_iff_forall_not_mem.mpr fun c hc => ?_
      exact absurd (hs c hc) (by simp [hsuffix c (by simp [hc])])
    rw [List.nil_append, List.append_nil] at hzero ⊢
    rw [← hv]
    exact (decimal_ofDigits_iff hne hd).mpr hzero

end SafeClock.Declaration
