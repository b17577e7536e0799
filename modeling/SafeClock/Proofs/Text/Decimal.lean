import SafeClock.Text.Decimal

/-!
# Decimals and the numbers they stand for

A number has one decimal that is written, and many texts that are read as it. This file says which
texts those are, and which of them is the written one.

> **one written form**: a run of digits is the decimal of the number it stands for exactly if no
> zero stands in front of another digit (`decimal_ofDigits_iff`).
-/

set_option autoImplicit false

namespace SafeClock.Text

variable {n limit : Nat} {cs digits : List Char}

theorem ofDigits_eq (cs : List Char) : ofDigits cs = Nat.ofDigitChars 10 cs 0 :=
  Nat.ofDigitChars_eq_foldl.symm

theorem ofDigits_cons (c : Char) (cs : List Char) :
    ofDigits (c :: cs) = Nat.ofDigitChars 10 cs (c.toNat - '0'.toNat) := by
  rw [ofDigits_eq, Nat.ofDigitChars_cons, Nat.mul_zero, Nat.zero_add]

@[simp] theorem ofDigits_decimal (n : Nat) : ofDigits (decimal n) = n := by
  rw [ofDigits_eq]
  exact Nat.ofDigitChars_ten_toDigits

theorem decimal_ne_nil (n : Nat) : decimal n ≠ [] := Nat.toDigits_ne_nil

theorem isDigit_of_mem_decimal {c : Char} (h : c ∈ decimal n) : c.isDigit = true :=
  Nat.isDigit_of_mem_toDigits (by decide) (by decide) h

/-! ## The written form -/

/-- The decimal of a number below ten is the digit itself. -/
theorem decimal_of_isDigit {c : Char} (h : c.isDigit = true) :
    decimal (c.toNat - '0'.toNat) = [c] ∧ c.toNat - '0'.toNat < 10 := by
  obtain ⟨hlow, hhigh⟩ : 48 ≤ c.toNat ∧ c.toNat ≤ 57 := Char.isDigit_iff_toNat.mp h
  have hlt : c.toNat - '0'.toNat < 10 := by
    show c.toNat - 48 < 10
    omega
  refine ⟨?_, hlt⟩
  rw [decimal, Nat.toDigits_of_lt_base hlt]
  congr 1
  apply Char.toNat_inj.mp
  rw [Nat.toNat_digitChar_of_lt_ten hlt]
  show 48 + (c.toNat - 48) = c.toNat
  omega

/-- Digits behind the decimal of a number that is not zero go on with that decimal. -/
theorem decimal_append (hn : 0 < n) (hd : ∀ c ∈ digits, c.isDigit = true) :
    decimal n ++ digits = decimal (Nat.ofDigitChars 10 digits n) := by
  induction digits generalizing n with
  | nil => rw [List.append_nil, Nat.ofDigitChars_nil]
  | cons c digits ih =>
    obtain ⟨hc, hdigits⟩ := List.forall_mem_cons.mp hd
    obtain ⟨hone, hlt⟩ := decimal_of_isDigit hc
    -- The number stays positive, which is what the induction needs: a zero would not go on.
    have hpos : 0 < 10 * n + (c.toNat - '0'.toNat) := by omega
    calc decimal n ++ c :: digits
        = decimal n ++ decimal (c.toNat - '0'.toNat) ++ digits := by rw [hone]; simp
      _ = decimal (10 * n + (c.toNat - '0'.toNat)) ++ digits := by
          rw [decimal, decimal, Nat.toDigits_append_toDigits (by decide) hn hlt, decimal]
      _ = decimal (Nat.ofDigitChars 10 (c :: digits) n) := by
          rw [ih hpos hdigits, Nat.ofDigitChars_cons]

/-- The decimal of a number that is not zero does not start with a zero. -/
theorem head?_decimal_ne (hn : 0 < n) : (decimal n).head? ≠ some '0' := by
  induction n using Nat.strongRecOn with
  | ind n ih =>
    rw [decimal, Nat.toDigits_eq_if (by decide)]
    split
    · simp only [List.head?_cons, ne_eq, Option.some.injEq, Nat.digitChar_eq_zero]
      omega
    · have hlt : n / 10 < n := by omega
      have hpos : 0 < n / 10 := by omega
      have hsome : (Nat.toDigits 10 (n / 10)).head?.isSome :=
        List.isSome_head?.mpr Nat.toDigits_ne_nil
      rw [List.head?_append, Option.or_of_isSome hsome]
      exact ih _ hlt hpos

/-- **The decimal is the one run of digits without a zero in front.** -/
theorem decimal_ofDigits_iff (hne : digits ≠ []) (hd : ∀ c ∈ digits, c.isDigit = true) :
    digits = decimal (ofDigits digits) ↔ (digits.head? = some '0' → digits = ['0']) := by
  cases digits with
  | nil => exact absurd rfl hne
  | cons c rest =>
    constructor
    · intro heq hzero
      rcases Nat.eq_zero_or_pos (ofDigits (c :: rest)) with h0 | hpos
      · rw [heq, h0]
        rfl
      · rw [heq] at hzero
        exact absurd hzero (head?_decimal_ne hpos)
    · intro hzero
      obtain ⟨hc, hrest⟩ := List.forall_mem_cons.mp hd
      obtain ⟨hone, -⟩ := decimal_of_isDigit hc
      rcases Nat.eq_zero_or_pos (c.toNat - '0'.toNat) with h0 | hpos
      · -- The first digit is a zero, so it is the only one.
        obtain rfl : c = '0' := by
          rw [h0] at hone
          exact (List.singleton_inj.mp hone).symm
        obtain rfl : rest = [] := (List.cons.inj (hzero rfl)).2
        rfl
      · rw [ofDigits_cons, ← decimal_append hpos hrest, hone]
        rfl

/-! ## What is read -/

theorem readDigits?_eq_some_iff :
    readDigits? cs = some n ↔ cs ≠ [] ∧ (∀ c ∈ cs, c.isDigit = true) ∧ ofDigits cs = n := by
  simp [readDigits?, and_assoc]

/-- A sign that is read and passed over. -/
def IsSign (sign : List Char) : Prop := sign = [] ∨ sign = ['+']

theorem eq_dropPlus (cs : List Char) : cs = dropPlus cs ∨ cs = '+' :: dropPlus cs := by
  unfold dropPlus
  split
  · exact .inr rfl
  · exact .inl rfl

/-- **What is read as a number below a limit**: digits, with at most a plus sign in front. -/
theorem readWord?_eq_some_iff :
    readWord? limit cs = some n ↔ ∃ sign digits, cs = sign ++ digits ∧ IsSign sign ∧
      digits ≠ [] ∧ (∀ c ∈ digits, c.isDigit = true) ∧ ofDigits digits = n ∧ n < limit := by
  rw [readWord?, Option.filter_eq_some_iff, readDigits?_eq_some_iff]
  simp only [decide_eq_true_eq]
  constructor
  · rintro ⟨⟨hne, hd, hn⟩, hlt⟩
    rcases eq_dropPlus cs with hcs | hcs
    · exact ⟨[], _, hcs, .inl rfl, hne, hd, hn, hlt⟩
    · exact ⟨['+'], _, hcs, .inr rfl, hne, hd, hn, hlt⟩
  · rintro ⟨sign, digits, rfl, rfl | rfl, hne, hd, hn, hlt⟩
    · -- A plus sign would be the first of the digits.
      have hplus : dropPlus digits = digits := by
        cases digits with
        | nil => rfl
        | cons c rest =>
          unfold dropPlus
          split
          · next heq =>
            obtain ⟨rfl, -⟩ := List.cons.inj heq
            exact absurd (hd '+' List.mem_cons_self) (by decide)
          · rfl
      rw [List.nil_append, hplus]
      exact ⟨⟨hne, hd, hn⟩, hlt⟩
    · exact ⟨⟨hne, hd, hn⟩, hlt⟩

end SafeClock.Text
