import SafeClock.Proofs.Text.Blank

/-!
# The words of a text

A word is a run of characters that are not blank, with a blank or an end of the text on either side.
Everything about words follows from one equation:

> **words part at a blank**: the words of two texts with a blank between them are those of the one
> and those of the other (`words_append_cons`).

A line is told by its last word. `IsLastWord` says which that is by what stands around it, and
`getLast?_words_eq_some_iff` that there is no other.
-/

set_option autoImplicit false

namespace SafeClock.Text

variable {p : Char → Bool} {c : Char} {cs xs ys w blanks line : List Char}

/-! ## Pieces -/

theorem pieces_cons (p : Char → Bool) (c : Char) (cs : List Char) :
    pieces p (c :: cs) =
      if p c then [] :: pieces p cs
      else match pieces p cs with
        | [] => [[c]]
        | piece :: rest => (c :: piece) :: rest := rfl

theorem pieces_of_forall_neg (h : ∀ c ∈ cs, p c = false) : pieces p cs = [cs] := by
  induction cs with
  | nil => rfl
  | cons c cs ih =>
    obtain ⟨hc, hcs⟩ := List.forall_mem_cons.mp h
    rw [pieces_cons, hc, ih hcs]
    rfl

theorem pieces_append_cons (hc : p c = true) (xs ys : List Char) :
    pieces p (xs ++ c :: ys) = pieces p xs ++ pieces p ys := by
  induction xs with
  | nil =>
    rw [List.nil_append, pieces_cons, if_pos hc]
    rfl
  | cons x xs ih =>
    rw [List.cons_append, pieces_cons, pieces_cons, ih]
    split
    · rfl
    · -- The first piece of `xs` grows by `x`, and there is one.
      have hne : pieces p xs ≠ [] := by
        cases xs with
        | nil => simp [pieces]
        | cons y ys =>
          rw [pieces_cons]
          split
          · simp
          · split <;> simp
      obtain ⟨piece, rest, hpieces⟩ := List.exists_cons_of_ne_nil hne
      rw [hpieces]
      rfl

/-! ## Words -/

/-- **Words part at a blank.** -/
theorem words_append_cons (hc : isBlank c = true) (xs ys : List Char) :
    words (xs ++ c :: ys) = words xs ++ words ys := by
  rw [words, pieces_append_cons hc, List.filter_append]
  rfl

theorem words_of_blank (h : ∀ c ∈ blanks, isBlank c = true) : words blanks = [] := by
  induction blanks with
  | nil => rfl
  | cons c cs ih =>
    obtain ⟨hc, hcs⟩ := List.forall_mem_cons.mp h
    have hparted := words_append_cons hc [] cs
    rw [List.nil_append, ih hcs] at hparted
    exact hparted

/-- Blanks behind a text are no part of its words. -/
theorem words_append_blank (h : ∀ c ∈ blanks, isBlank c = true) (xs : List Char) :
    words (xs ++ blanks) = words xs := by
  cases blanks with
  | nil => rw [List.append_nil]
  | cons c cs =>
    obtain ⟨hc, hcs⟩ := List.forall_mem_cons.mp h
    rw [words_append_cons hc, words_of_blank hcs, List.append_nil]

theorem words_of_solid (hne : w ≠ []) (h : ∀ c ∈ w, isBlank c = false) : words w = [w] := by
  rw [words, pieces_of_forall_neg h]
  simp [hne]

/-! ## The last word -/

/-- The last word of a line: nothing but blanks stands behind it, and a blank, if anything, before
it. -/
def IsLastWord (line w : List Char) : Prop :=
  ∃ before blanks, line = before ++ w ++ blanks ∧ w ≠ [] ∧ (∀ c ∈ w, isBlank c = false) ∧
    (∀ c ∈ blanks, isBlank c = true) ∧
    (before = [] ∨ ∃ xs c, before = xs ++ [c] ∧ isBlank c = true)

/-- A line is blank or has a last word. -/
theorem blank_or_isLastWord (line : List Char) :
    (∀ c ∈ line, isBlank c = true) ∨ ∃ w, IsLastWord line w := by
  obtain ⟨blanks, hline, hblanks⟩ := exists_dropEndWhile isBlank line
  rcases dropEndWhile_cases isBlank line with hnil | ⟨ys, a, hfront, ha⟩
  · rw [hnil, List.nil_append] at hline
    exact .inl (hline ▸ hblanks)
  · rw [hfront] at hline
    obtain ⟨w, hw, hsolid⟩ := exists_dropEndWhile (fun c => !isBlank c) (ys ++ [a])
    have hbefore := dropEndWhile_cases (fun c => !isBlank c) (ys ++ [a])
    generalize dropEndWhile (fun c => !isBlank c) (ys ++ [a]) = before at hw hbefore
    refine .inr ⟨w, before, blanks, hw ▸ hline, ?_, fun c hc => by simpa using hsolid c hc,
      hblanks, ?_⟩
    · -- Without a word the text before the blanks would be empty or end in a blank.
      rintro rfl
      rw [List.append_nil] at hw
      rcases hbefore with hnil | ⟨xs, c, hconcat, hc⟩
      · simp [hnil] at hw
      · obtain ⟨-, hac⟩ := List.append_inj' (hw.trans hconcat) rfl
        obtain rfl : a = c := List.singleton_inj.mp hac
        simp [ha] at hc
    · exact hbefore.imp_right fun ⟨xs, c, hconcat, hc⟩ => ⟨xs, c, hconcat, by simpa using hc⟩

theorem IsLastWord.getLast?_words (h : IsLastWord line w) : (words line).getLast? = some w := by
  obtain ⟨before, blanks, rfl, hne, hsolid, hblanks, rfl | ⟨xs, c, rfl, hc⟩⟩ := h
  · rw [words_append_blank hblanks, List.nil_append, words_of_solid hne hsolid]
    rfl
  · rw [words_append_blank hblanks, List.append_assoc, List.singleton_append,
      words_append_cons hc, words_of_solid hne hsolid, List.getLast?_concat]

/-- **The last of the words is the last word.** -/
theorem getLast?_words_eq_some_iff : (words line).getLast? = some w ↔ IsLastWord line w := by
  refine ⟨fun h => ?_, IsLastWord.getLast?_words⟩
  rcases blank_or_isLastWord line with hblank | ⟨w', hw'⟩
  · rw [words_of_blank hblank] at h
    cases h
  · rw [hw'.getLast?_words] at h
    exact Option.some.inj h ▸ hw'

theorem getLast?_words_eq_none_iff :
    (words line).getLast? = none ↔ ∀ c ∈ line, isBlank c = true := by
  refine ⟨fun h => ?_, fun h => by rw [words_of_blank h]; rfl⟩
  rcases blank_or_isLastWord line with hblank | ⟨w, hw⟩
  · exact hblank
  · rw [hw.getLast?_words] at h
    cases h

end SafeClock.Text
