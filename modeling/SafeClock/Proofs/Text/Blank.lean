import Mathlib.Data.List.DropRight
import SafeClock.Text.Blank

/-!
# What is dropped at the ends of a text

> **blanks at the end do not count**: a text with blanks added behind it is trimmed to the same text
> (`trim_append_of_blank`).
-/

set_option autoImplicit false

namespace SafeClock.Text

variable {α : Type} {p : α → Bool} {xs ys : List α} {cs blanks : List Char}

theorem dropEndWhile_append_of_pos (h : ∀ a ∈ ys, p a = true) :
    dropEndWhile p (xs ++ ys) = dropEndWhile p xs := by
  have hrev : ∀ a ∈ ys.reverse, p a = true := fun a ha => h a (List.mem_reverse.mp ha)
  rw [dropEndWhile, List.reverse_append, List.dropWhile_append_of_pos hrev, dropEndWhile]

theorem dropEndWhile_of_forall_neg (h : ∀ a ∈ xs, p a = false) : dropEndWhile p xs = xs :=
  List.rdropWhile_eq_self_iff.mpr fun hne => by simp [h _ (List.getLast_mem hne)]

theorem exists_dropEndWhile (p : α → Bool) (xs : List α) :
    ∃ ys, xs = dropEndWhile p xs ++ ys ∧ ∀ a ∈ ys, p a = true :=
  ⟨xs.rtakeWhile p, List.rdropWhile_append_rtakeWhile.symm, fun _ => List.mem_rtakeWhile_imp⟩

/-- What is left ends, if anything is left, in something that is kept. -/
theorem dropEndWhile_cases (p : α → Bool) (xs : List α) :
    dropEndWhile p xs = [] ∨ ∃ ys a, dropEndWhile p xs = ys ++ [a] ∧ p a = false := by
  rcases List.eq_nil_or_concat (dropEndWhile p xs) with hnil | ⟨ys, a, heq⟩
  · exact .inl hnil
  · refine .inr ⟨ys, a, by rw [heq, List.concat_eq_append], ?_⟩
    have hlast := List.rdropWhile_last_not p xs (show dropEndWhile p xs ≠ [] by simp [heq])
    change ¬p ((dropEndWhile p xs).getLast _) = true at hlast
    simpa [heq] using hlast

theorem trimEnd_append_of_blank (h : ∀ c ∈ blanks, isBlank c = true) :
    trimEnd (cs ++ blanks) = trimEnd cs :=
  dropEndWhile_append_of_pos h

theorem trim_append_of_blank (h : ∀ c ∈ blanks, isBlank c = true) :
    trim (cs ++ blanks) = trim cs := by
  rw [trim, trimStart, List.dropWhile_append]
  split
  · next hall =>
    -- Nothing but blanks is trimmed to nothing, wherever it stands.
    have hcs : trimStart cs = [] := List.isEmpty_iff.mp hall
    have hblanks : blanks.dropWhile isBlank = [] := List.dropWhile_eq_nil_iff.mpr h
    rw [hblanks, trim, hcs]
  · exact trimEnd_append_of_blank h

end SafeClock.Text
