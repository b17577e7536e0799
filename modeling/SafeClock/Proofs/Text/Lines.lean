import SafeClock.Text.Lines

/-!
# How a text falls into segments and lines

`segments` cuts a text behind each line feed. This file says which lists of segments come about in
that way (`Segmented`), so that a text which was put together from segments need not be cut again:

> **one cut**: the segments of a text are the only list of segments that it can be put together from
> (`segments_eq_iff`).

A segment that is changed before its last character stays a segment (`Segmented.replace`), and its
line keeps its ending (`ending_append_cons`). What is read off a text line by line is read off its
parts, and does not depend on how the lines end (`IgnoresEndings.lines_append`,
`IgnoresEndings.lines_withReturns`).
-/

set_option autoImplicit false

namespace SafeClock.Text

variable {xs ys zs s : List Char} {as bs ss : List (List Char)} {c : Char}

/-! ## Segments -/

/-- A segment that a line feed ends. -/
def Complete (s : List Char) : Prop := ∃ xs, s = xs ++ ['\n'] ∧ '\n' ∉ xs

/-- What a text can be cut into. -/
inductive Segmented : List (List Char) → Prop
  | nil : Segmented []
  /-- The text does not end in a line feed. -/
  | last {s : List Char} (hne : s ≠ []) (h : '\n' ∉ s) : Segmented [s]
  | cons {s : List Char} {ss : List (List Char)} (h : Complete s) (hss : Segmented ss) :
      Segmented (s :: ss)

theorem segments_cons (c : Char) (cs : List Char) :
    segments (c :: cs) =
      if c = '\n' then ['\n'] :: segments cs
      else match segments cs with
        | [] => [[c]]
        | segment :: rest => (c :: segment) :: rest := rfl

theorem segments_append_newline (h : '\n' ∉ xs) (ys : List Char) :
    segments (xs ++ '\n' :: ys) = (xs ++ ['\n']) :: segments ys := by
  induction xs with
  | nil => rw [List.nil_append, segments_cons, if_pos rfl, List.nil_append]
  | cons x xs ih =>
    obtain ⟨hx, hxs⟩ := List.ne_and_not_mem_of_not_mem_cons h
    rw [List.cons_append, segments_cons, if_neg hx.symm, ih hxs]
    rfl

theorem segments_of_not_mem (hne : xs ≠ []) (h : '\n' ∉ xs) : segments xs = [xs] := by
  induction xs with
  | nil => exact absurd rfl hne
  | cons x xs ih =>
    obtain ⟨hx, hxs⟩ := List.ne_and_not_mem_of_not_mem_cons h
    rw [segments_cons, if_neg hx.symm]
    cases xs with
    | nil => rfl
    | cons y ys => rw [ih (List.cons_ne_nil _ _) hxs]

theorem segmented_segments (cs : List Char) : Segmented (segments cs) := by
  induction cs with
  | nil => exact .nil
  | cons c cs ih =>
    rw [segments_cons]
    split
    · exact .cons ⟨[], rfl, List.not_mem_nil⟩ ih
    · next hc =>
      -- The character goes to the front of the first segment and leaves it as complete as it was.
      cases hs : segments cs with
      | nil => exact .last (List.cons_ne_nil _ _) (by simpa using Ne.symm hc)
      | cons s ss =>
        rw [hs] at ih
        cases ih with
        | last _ h =>
          have hcs := List.not_mem_cons_of_ne_of_not_mem (Ne.symm hc) h
          exact .last (List.cons_ne_nil _ _) hcs
        | cons h hss =>
          obtain ⟨xs, rfl, hxs⟩ := h
          exact .cons ⟨c :: xs, rfl, List.not_mem_cons_of_ne_of_not_mem (Ne.symm hc) hxs⟩ hss

theorem Segmented.segments_flatten (h : Segmented ss) : segments ss.flatten = ss := by
  induction h with
  | nil => rfl
  | last hne h =>
    rw [List.flatten_cons, List.flatten_nil, List.append_nil]
    exact segments_of_not_mem hne h
  | cons h _ ih =>
    obtain ⟨xs, rfl, hxs⟩ := h
    rw [List.flatten_cons, List.append_assoc, List.singleton_append, segments_append_newline hxs,
      ih]

/-- **A text can be cut in one way only.** -/
theorem segments_eq_iff : segments xs = ss ↔ Segmented ss ∧ ss.flatten = xs := by
  constructor
  · rintro rfl
    exact ⟨segmented_segments xs, flatten_segments xs⟩
  · rintro ⟨h, rfl⟩
    exact h.segments_flatten

/-! ## Segments before and behind a segment -/

theorem segmented_append_cons_iff :
    Segmented (as ++ s :: bs) ↔ (∀ a ∈ as, Complete a) ∧ Segmented (s :: bs) := by
  induction as with
  | nil => simp
  | cons a as ih =>
    rw [List.forall_mem_cons, and_assoc, ← ih]
    constructor
    · intro h
      generalize hrest : as ++ s :: bs = rest at h
      rw [List.cons_append, hrest] at h
      cases h with
      | last => exact absurd hrest (by simp)
      | cons ha hss => exact ⟨ha, hss⟩
    · exact fun h => .cons h.1 h.2

theorem segmented_of_complete (h : ∀ a ∈ as, Complete a) : Segmented as := by
  induction as with
  | nil => exact .nil
  | cons a as ih =>
    obtain ⟨ha, has⟩ := List.forall_mem_cons.mp h
    exact .cons ha (ih has)

/-- What stands before a segment ends in a line feed, if anything stands there. -/
theorem flatten_of_complete (h : ∀ a ∈ as, Complete a) :
    as.flatten = [] ∨ ∃ xs, as.flatten = xs ++ ['\n'] := by
  rcases List.eq_nil_or_concat as with rfl | ⟨init, a, rfl⟩
  · exact .inl rfl
  · obtain ⟨xs, rfl, -⟩ := h a (by simp)
    exact .inr ⟨init.flatten ++ xs, by simp⟩

/-- A line feed is the last character of its segment. -/
theorem Complete.of_append (h : Complete (xs ++ zs)) (hne : zs ≠ []) :
    ∃ mid, zs = mid ++ ['\n'] ∧ '\n' ∉ xs ++ mid := by
  obtain ⟨ts, heq, hts⟩ := h
  obtain ⟨mid, c, rfl⟩ := (List.eq_nil_or_concat zs).resolve_left hne
  rw [List.concat_eq_append, ← List.append_assoc] at heq
  obtain ⟨rfl, hc⟩ := List.append_inj' heq rfl
  exact ⟨mid, by rw [List.concat_eq_append, hc], hts⟩

/-- No line feed stands before the last character of a segment. -/
theorem Segmented.not_mem (h : Segmented (as ++ (xs ++ zs) :: bs)) (hne : zs ≠ []) :
    '\n' ∉ xs := by
  intro hmem
  cases (segmented_append_cons_iff.mp h).2 with
  | last _ hs => exact hs (List.mem_append_left _ hmem)
  | cons hs _ =>
    obtain ⟨mid, -, hmid⟩ := hs.of_append hne
    exact hmid (List.mem_append_left _ hmem)

/-- **A segment can be changed before its last character**, so long as no line feed comes in. -/
theorem Segmented.replace (h : Segmented (as ++ (xs ++ zs) :: bs)) (hne : zs ≠ [])
    (hys : '\n' ∉ ys) : Segmented (as ++ (ys ++ zs) :: bs) := by
  obtain ⟨has, hs⟩ := segmented_append_cons_iff.mp h
  refine segmented_append_cons_iff.mpr ⟨has, ?_⟩
  generalize hx : xs ++ zs = s at hs
  cases hs with
  | last _ hs =>
    subst hx
    have hzs : '\n' ∉ zs := fun hmem => hs (List.mem_append_right _ hmem)
    refine .last (by simp [hne]) ?_
    exact fun hmem => (List.mem_append.mp hmem).elim hys hzs
  | cons hs hbs =>
    subst hx
    obtain ⟨mid, rfl, hmid⟩ := hs.of_append hne
    refine .cons ⟨ys ++ mid, (List.append_assoc _ _ _).symm, ?_⟩ hbs
    intro hmem
    rcases List.mem_append.mp hmem with hmem | hmem
    · exact hys hmem
    · exact hmid (List.mem_append_right _ hmem)

/-! ## The ending of a line -/

/-- What ends a segment behind its line. -/
def ending (segment : List Char) : List Char := segment.drop (dropEnding segment).length

theorem exists_ending (s : List Char) :
    ∃ e, s = dropEnding s ++ e ∧ (e = [] ∨ e = ['\n'] ∨ e = ['\r', '\n']) := by
  unfold dropEnding
  split
  · next rest h => exact ⟨['\r', '\n'], by simpa using congrArg List.reverse h, .inr (.inr rfl)⟩
  · next rest _ h => exact ⟨['\n'], by simpa using congrArg List.reverse h, .inr (.inl rfl)⟩
  · exact ⟨[], (List.append_nil s).symm, .inl rfl⟩

/-- A character of an ending. -/
def IsBreak (c : Char) : Prop := c = '\r' ∨ c = '\n'

theorem IsBreak.isBlank (h : IsBreak c) : isBlank c = true := by
  rcases h with rfl | rfl <;> decide

theorem exists_breaks (s : List Char) : ∃ e, s = dropEnding s ++ e ∧ ∀ c ∈ e, IsBreak c := by
  obtain ⟨e, hs, he⟩ := exists_ending s
  refine ⟨e, hs, ?_⟩
  rcases he with rfl | rfl | rfl <;> simp [IsBreak]

/-- An ending has nothing but blanks in it. -/
theorem exists_blank_ending (s : List Char) :
    ∃ e, s = dropEnding s ++ e ∧ ∀ c ∈ e, isBlank c = true := by
  obtain ⟨e, hs, he⟩ := exists_breaks s
  exact ⟨e, hs, fun c hc => (he c hc).isBlank⟩

theorem dropEnding_append_cons (hlf : c ≠ '\n') (hcr : c ≠ '\r') (xs ys : List Char) :
    dropEnding (xs ++ c :: ys) = xs ++ c :: dropEnding ys := by
  have hrev : (xs ++ c :: ys).reverse = ys.reverse ++ c :: xs.reverse := by simp
  rw [dropEnding, hrev, dropEnding]
  -- The ending is read from the back, and reading stops at `c` at the latest.
  rcases hys : ys.reverse with _ | ⟨d, _ | ⟨e, rest⟩⟩
  · obtain rfl : ys = [] := by simpa using hys
    split
    · next h => simp_all
    · next h => simp_all
    · rfl
  · obtain rfl : ys = [d] := by simpa using congrArg List.reverse hys
    by_cases hd : d = '\n'
    · subst hd
      simp [hcr]
    · simp [hd]
  · have hyeq : ys = rest.reverse ++ [e, d] := by simpa using congrArg List.reverse hys
    subst hyeq
    by_cases hd : d = '\n'
    · subst hd
      by_cases he : e = '\r'
      · subst he
        simp
      · simp [he]
    · simp [hd]

theorem ending_append_cons (hlf : c ≠ '\n') (hcr : c ≠ '\r') (xs ys : List Char) :
    ending (xs ++ c :: ys) = ending ys := by
  rw [ending, dropEnding_append_cons hlf hcr, ending, List.length_append, List.length_cons,
    List.drop_append, List.drop_of_length_le (by omega)]
  simp

theorem dropEnding_prefix_self (s : List Char) : dropEnding s <+: s := by
  obtain ⟨e, hs, -⟩ := exists_ending s
  exact ⟨e, hs.symm⟩

/-- A text that shares no character with what is added behind another starts both or neither. -/
theorem prefix_append_iff_of_disjoint (h : ∀ c ∈ ys, c ∉ xs) : xs <+: zs ++ ys ↔ xs <+: zs := by
  refine ⟨fun hpre => ?_, fun hpre => hpre.trans (List.prefix_append zs ys)⟩
  rcases List.prefix_or_prefix_of_prefix hpre (List.prefix_append zs ys) with h' | ⟨f, rfl⟩
  · exact h'
  · rw [List.prefix_append_right_inj] at hpre
    cases f with
    | nil => exact (List.append_nil zs).symm ▸ List.prefix_refl zs
    | cons c f => exact absurd (by simp) (h c (hpre.subset List.mem_cons_self))

theorem prefix_append_breaks_iff (hcr : '\r' ∉ xs) (hlf : '\n' ∉ xs) (hys : ∀ c ∈ ys, IsBreak c) :
    xs <+: zs ++ ys ↔ xs <+: zs := by
  refine prefix_append_iff_of_disjoint fun c hc => ?_
  rcases hys c hc with rfl | rfl
  · exact hcr
  · exact hlf

/-- **A text that holds no part of an ending starts a line exactly if it starts its segment.** -/
theorem prefix_dropEnding_iff (hcr : '\r' ∉ xs) (hlf : '\n' ∉ xs) :
    xs <+: dropEnding s ↔ xs <+: s := by
  obtain ⟨e, hs, he⟩ := exists_breaks s
  have hiff : xs <+: dropEnding s ++ e ↔ xs <+: dropEnding s :=
    prefix_append_breaks_iff hcr hlf he
  rw [← hs] at hiff
  exact hiff.symm

/-! ## Readings of lines

What is read off a text line by line does not change with how its lines end, so long as the reading
of a line does not. Such a reading goes through a text of two parts in order. -/

/-- Every text is one line, or a line, a line feed and a text. -/
@[elab_as_elim]
theorem line_induction {P : List Char → Prop} (last : ∀ xs, '\n' ∉ xs → P xs)
    (line : ∀ xs ys, '\n' ∉ xs → P ys → P (xs ++ '\n' :: ys)) (cs : List Char) : P cs := by
  by_cases hmem : '\n' ∈ cs
  · obtain ⟨xs, ys, rfl, hxs⟩ := List.eq_append_cons_of_mem hmem
    exact line xs ys hxs (line_induction last line ys)
  · exact last cs hmem
termination_by cs.length
decreasing_by simp_all; omega

theorem dropEnding_of_not_mem (h : '\n' ∉ xs) : dropEnding xs = xs := by
  obtain ⟨e, hs, rfl | rfl | rfl⟩ := exists_ending xs
  · rw [List.append_nil] at hs
    exact hs.symm
  · exact absurd (hs ▸ by simp) h
  · exact absurd (hs ▸ by simp) h

/-- A reading of lines that is blind to their endings, and finds nothing on an empty line. -/
structure IgnoresEndings {β : Type} (f : List Char → Option β) : Prop where
  nil : f [] = none
  append : ∀ xs ys, (∀ c ∈ ys, IsBreak c) → f (xs ++ ys) = f xs

namespace IgnoresEndings

variable {β : Type} {f : List Char → Option β}

theorem dropEnding (hf : IgnoresEndings f) (s : List Char) : f (dropEnding s) = f s := by
  obtain ⟨e, hs, he⟩ := exists_breaks s
  have happend := hf.append (Text.dropEnding s) e he
  rw [← hs] at happend
  exact happend.symm

theorem lines_last (hf : IgnoresEndings f) (h : '\n' ∉ xs) :
    (lines xs).filterMap f = (f xs).toList := by
  cases xs with
  | nil =>
    rw [hf.nil]
    rfl
  | cons c cs =>
    rw [lines, segments_of_not_mem (List.cons_ne_nil c cs) h, List.map_singleton,
      dropEnding_of_not_mem h, List.filterMap_cons]
    cases f (c :: cs) <;> rfl

theorem lines_cons (hf : IgnoresEndings f) (h : '\n' ∉ xs) (ys : List Char) :
    (lines (xs ++ '\n' :: ys)).filterMap f = (f xs).toList ++ (lines ys).filterMap f := by
  have hx : f (Text.dropEnding (xs ++ ['\n'])) = f xs :=
    (hf.dropEnding _).trans (hf.append xs ['\n'] (by simp [IsBreak]))
  rw [lines, segments_append_newline h, List.map_cons, List.filterMap_cons, hx]
  cases f xs <;> rfl

/-- **What is read off a text is read off its parts**, wherever a line feed parts it. -/
theorem lines_append (hf : IgnoresEndings f) (xs ys : List Char) :
    (lines (xs ++ '\n' :: ys)).filterMap f =
      (lines xs).filterMap f ++ (lines ys).filterMap f := by
  induction xs using line_induction with
  | last xs h => rw [hf.lines_cons h, hf.lines_last h]
  | line xs zs h ih =>
    rw [List.append_assoc, List.cons_append, hf.lines_cons h, hf.lines_cons h, ih,
      List.append_assoc]

end IgnoresEndings

/-- The text with a carriage return put before each line feed. -/
def withReturns (cs : List Char) : List Char :=
  cs.flatMap fun c => if c = '\n' then ['\r', '\n'] else [c]

theorem withReturns_append_newline (xs ys : List Char) :
    withReturns (xs ++ '\n' :: ys) = (withReturns xs ++ ['\r']) ++ '\n' :: withReturns ys := by
  simp [withReturns]

theorem withReturns_of_not_mem (h : '\n' ∉ xs) : withReturns xs = xs := by
  induction xs with
  | nil => rfl
  | cons x xs ih =>
    obtain ⟨hx, hxs⟩ := List.ne_and_not_mem_of_not_mem_cons h
    rw [withReturns, List.flatMap_cons, if_neg hx.symm]
    exact congrArg (x :: ·) (ih hxs)

/-- **Carriage returns before the line feeds are not read.** -/
theorem IgnoresEndings.lines_withReturns {β : Type} {f : List Char → Option β}
    (hf : IgnoresEndings f) (cs : List Char) :
    (lines (withReturns cs)).filterMap f = (lines cs).filterMap f := by
  induction cs using line_induction with
  | last xs h => rw [withReturns_of_not_mem h]
  | line xs ys h ih =>
    have hreturn : '\n' ∉ xs ++ ['\r'] := by simp [h]
    rw [withReturns_append_newline, withReturns_of_not_mem h, hf.lines_cons hreturn,
      hf.lines_cons h, hf.append xs ['\r'] (by simp [IsBreak]), ih]

end SafeClock.Text
