import SafeClock.Proofs.Declaration.Form
import SafeClock.Proofs.Text.Lines

/-!
# Texts with a declaration in them

Reading goes through the lines of a text and writing through its segments, and each takes the first
that starts with the lead-in. A `Site` is a text taken apart at that place: the segments before the
declaration, its form, and the segments behind it.

> **a site is read and written at its form**: `Site.read_text` and `Site.write_text` say what comes
> of a text with a declaration, and `exists_site_of_write` and `exists_site_of_read` that nothing
> else is written to or read.

Lines and segments may disagree on which of them is the first: a lead-in with a carriage return at
its end can start a segment and not its line. They agree for a lead-in that holds no part of an
ending (`locate_lines`), and for any lead-in wherever a write is met, since the ending then stands
behind a `;`.
-/

set_option autoImplicit false

namespace SafeClock.Declaration

open SafeClock.Text

variable {lead line digits : List Char} {ls ss earlier later : List (List Char)}

/-! ## The first line that starts with the lead-in -/

/-- A line that starts with the lead-in, with none before it that does. -/
def IsFirst (lead line : List Char) (ls : List (List Char)) : Prop :=
  ∃ earlier later, ls = earlier ++ line :: later ∧ (∀ l ∈ earlier, ¬lead <+: l) ∧ lead <+: line

theorem IsFirst.starts (h : IsFirst lead line ls) : lead <+: line := by
  obtain ⟨earlier, later, -, -, hlead⟩ := h
  exact hlead

theorem find?_eq_some_iff : ls.find? (lead.isPrefixOf ·) = some line ↔ IsFirst lead line ls := by
  rw [List.find?_eq_some_iff_append]
  constructor
  · rintro ⟨hline, earlier, later, rfl, hfirst⟩
    refine ⟨earlier, later, rfl, fun l hl hp => ?_, List.isPrefixOf_iff_prefix.mp hline⟩
    have hno := hfirst l hl
    rw [Bool.not_eq_true', Bool.eq_false_iff] at hno
    exact hno (List.isPrefixOf_iff_prefix.mpr hp)
  · rintro ⟨earlier, later, rfl, hfirst, hline⟩
    refine ⟨List.isPrefixOf_iff_prefix.mpr hline, earlier, later, rfl, fun l hl => ?_⟩
    rw [Bool.not_eq_true', Bool.eq_false_iff]
    exact fun hp => hfirst l hl (List.isPrefixOf_iff_prefix.mp hp)

theorem find?_eq_none_iff :
    ls.find? (lead.isPrefixOf ·) = none ↔ ∀ l ∈ ls, ¬lead <+: l := by
  simp only [List.find?_eq_none, List.isPrefixOf_iff_prefix]

/-- What the first of some lines that starts with the lead-in is parsed as. -/
def locate (lead : List Char) (ls : List (List Char)) : Except Fault (Parts × Nat) :=
  match ls.find? (lead.isPrefixOf ·) with
  | none => .error .absent
  | some line => parse lead line

theorem locate_of_isFirst (h : IsFirst lead line ls) : locate lead ls = parse lead line := by
  rw [locate, find?_eq_some_iff.mpr h]

theorem locate_of_none (h : ∀ l ∈ ls, ¬lead <+: l) : locate lead ls = .error .absent := by
  rw [locate, find?_eq_none_iff.mpr h]

theorem isFirst_or_none (lead : List Char) (ls : List (List Char)) :
    (∃ line, IsFirst lead line ls) ∨ ∀ l ∈ ls, ¬lead <+: l := by
  cases h : ls.find? (lead.isPrefixOf ·) with
  | none => exact .inr (find?_eq_none_iff.mp h)
  | some line => exact .inl ⟨line, find?_eq_some_iff.mp h⟩

theorem read_eq (lead text : String) :
    read lead text = (locate lead.toList (lines text.toList)).map Prod.snd := by
  rw [read, locate]
  cases (lines text.toList).find? (lead.toList.isPrefixOf ·) <;> rfl

/-- What is written around the parts of the segment that is found. -/
theorem writeSegments_append (hfirst : ∀ s ∈ earlier, ¬lead <+: s) (hline : lead <+: line)
    (digits : List Char) (later : List (List Char)) :
    writeSegments lead digits (earlier ++ line :: later) = (parse lead line).map fun found =>
      earlier.flatten ++ (found.1.before ++ digits ++ found.1.after ++ later.flatten) := by
  induction earlier with
  | nil =>
    rw [List.nil_append, writeSegments, if_pos (List.isPrefixOf_iff_prefix.mpr hline)]
    rfl
  | cons s earlier ih =>
    obtain ⟨hs, hfirst⟩ := List.forall_mem_cons.mp hfirst
    rw [List.cons_append, writeSegments, if_neg (mt List.isPrefixOf_iff_prefix.mp hs), ih hfirst]
    cases parse lead line with
    | error e => rfl
    | ok found => simp [Except.map]

theorem writeSegments_of_none (h : ∀ s ∈ ss, ¬lead <+: s) :
    writeSegments lead digits ss = .error .absent := by
  induction ss with
  | nil => rfl
  | cons s ss ih =>
    obtain ⟨hs, hss⟩ := List.forall_mem_cons.mp h
    rw [writeSegments, if_neg (mt List.isPrefixOf_iff_prefix.mp hs), ih hss]
    rfl

/-- A write is met exactly where a segment is located, and fails as that fails. -/
theorem map_write (lead text : String) (hz : Nat) :
    (write lead text hz).map (fun _ => ()) =
      (locate lead.toList (segments text.toList)).map fun _ => () := by
  rw [write]
  rcases isFirst_or_none lead.toList (segments text.toList) with ⟨line, h⟩ | h
  · rw [locate_of_isFirst h]
    obtain ⟨earlier, later, heq, hfirst, hline⟩ := h
    rw [heq, writeSegments_append hfirst hline]
    cases parse lead.toList line <;> rfl
  · rw [locate_of_none h, writeSegments_of_none h]
    rfl

/-- **Lines and segments lead to the same declaration**, for a lead-in that reaches into no ending.
-/
theorem locate_lines (hcr : '\r' ∉ lead) (hlf : '\n' ∉ lead) (cs : List Char) :
    (locate lead (lines cs)).map Prod.snd = (locate lead (segments cs)).map Prod.snd := by
  rcases isFirst_or_none lead (segments cs) with ⟨s, h⟩ | h
  · obtain ⟨earlier, later, heq, hfirst, hs⟩ := h
    -- A line is no longer than its segment, so no line before this one starts with the lead-in.
    have hline : IsFirst lead (dropEnding s) (lines cs) := by
      refine ⟨earlier.map dropEnding, later.map dropEnding, by simp [lines, heq], ?_,
        (prefix_dropEnding_iff hcr hlf).mpr hs⟩
      intro l hl
      obtain ⟨s', hs', rfl⟩ := List.mem_map.mp hl
      exact fun hp => hfirst s' hs' (hp.trans (dropEnding_prefix_self s'))
    obtain ⟨e, hend, hblank⟩ := exists_blank_ending s
    have hparse := parse_append_blank ((prefix_dropEnding_iff hcr hlf).mpr hs) hblank
    rw [← hend] at hparse
    rw [locate_of_isFirst hline, locate_of_isFirst ⟨earlier, later, heq, hfirst, hs⟩, hparse]
    cases parse lead (dropEnding s) <;> rfl
  · have hline : ∀ l ∈ lines cs, ¬lead <+: l := by
      intro l hl
      obtain ⟨s, hs, rfl⟩ := List.mem_map.mp hl
      exact fun hp => h s hs (hp.trans (dropEnding_prefix_self s))
    rw [locate_of_none hline, locate_of_none h]

/-! ## Sites -/

/-- A text with a declaration, taken apart. -/
structure Site (lead : List Char) where
  earlier : List (List Char)
  form : Form
  later : List (List Char)
  first : ∀ s ∈ earlier, ¬lead <+: s
  segmented : Segmented (earlier ++ form.line lead :: later)

namespace Site

/-- What stands before the literal. -/
def front (s : Site lead) : List Char := s.earlier.flatten ++ (s.form.parts lead).before

/-- What stands behind the literal. -/
def back (s : Site lead) : List Char := (s.form.parts lead).after ++ s.later.flatten

/-- The text that was taken apart. -/
def text (s : Site lead) : List Char := s.front ++ s.form.literal ++ s.back

theorem segments_text (s : Site lead) :
    segments s.text = s.earlier ++ s.form.line lead :: s.later := by
  refine segments_eq_iff.mpr ⟨s.segmented, ?_⟩
  simp [text, front, back, Form.line, Parts.text, Form.parts]

/-- No line feed stands between the line feed before the line of the declaration and its literal,
nor in the literal. -/
theorem newline_not_mem (s : Site lead) :
    '\n' ∉ (s.form.parts lead).before ++ s.form.literal := by
  have hne : (s.form.parts lead).after ≠ [] := by simp [Form.parts]
  exact s.segmented.not_mem hne

/-- The text with another number declared. -/
def declare (s : Site lead) (hz : Nat) : Site lead where
  earlier := s.earlier
  form := s.form.declare hz
  later := s.later
  first := s.first
  segmented := by
    refine s.segmented.replace (by simp [Form.parts]) fun hmem => ?_
    rcases List.mem_append.mp hmem with hmem | hmem
    · exact s.newline_not_mem (List.mem_append_left _ hmem)
    · exact absurd (isDigit_of_mem_decimal hmem) (by decide)

theorem text_declare (s : Site lead) (hz : Nat) :
    (s.declare hz).text = s.front ++ decimal hz ++ s.back := rfl

@[simp] theorem declare_declare (s : Site lead) (hz k : Nat) :
    (s.declare hz).declare k = s.declare k := rfl

/-- **A text changes with its literal.** -/
theorem text_declare_eq_iff (s : Site lead) (hz : Nat) :
    (s.declare hz).text = s.text ↔ s.form.literal = decimal hz := by
  rw [text_declare, text, List.append_left_inj, List.append_right_inj, eq_comm]

/-! ### Reading and writing at a site -/

/-- The line of the declaration, as it is without its ending. -/
theorem dropEnding_line (f : Form) (lead : List Char) :
    dropEnding (f.line lead) = { f with comment := dropEnding f.comment : Form }.line lead := by
  rw [Form.line_eq, Form.line_eq]
  have hassoc : ∀ cs, lead ++ (f.mid ++ '=' :: (f.raw ++ ';' :: cs)) =
      (lead ++ f.mid ++ '=' :: f.raw) ++ ';' :: cs := by simp
  rw [hassoc, dropEnding_append_cons (by decide) (by decide), ← hassoc]
  rfl

theorem isFirst_lines (s : Site lead) :
    IsFirst lead (dropEnding (s.form.line lead)) (lines s.text) := by
  refine ⟨s.earlier.map dropEnding, s.later.map dropEnding, by simp [lines, s.segments_text], ?_,
    ?_⟩
  · intro l hl
    obtain ⟨s', hs', rfl⟩ := List.mem_map.mp hl
    exact fun hp => s.first s' hs' (hp.trans (dropEnding_prefix_self s'))
  · rw [dropEnding_line]
    exact Form.lead_prefix_line _ lead

theorem locate_lines_text {hz : Nat} (s : Site lead) (h : Numeral s.form.literal hz) :
    ∃ parts, locate lead (lines s.text) = .ok (parts, hz) ∧ parts.literal = s.form.literal := by
  rw [locate_of_isFirst s.isFirst_lines, dropEnding_line]
  exact ⟨_, Form.parse_line _ lead h, rfl⟩

theorem read_text {lead : String} {hz : Nat} (s : Site lead.toList)
    (h : Numeral s.form.literal hz) : read lead (String.ofList s.text) = .ok hz := by
  obtain ⟨parts, hparts, -⟩ := s.locate_lines_text h
  rw [read_eq, String.toList_ofList, hparts]
  rfl

theorem write_text {lead : String} {prior : Nat} (s : Site lead.toList)
    (h : Numeral s.form.literal prior) (hz : Nat) :
    write lead (String.ofList s.text) hz = .ok (String.ofList (s.declare hz).text) := by
  rw [write, String.toList_ofList, s.segments_text,
    writeSegments_append s.first (s.form.lead_prefix_line _), Form.parse_line _ _ h, text_declare]
  simp [Except.map, front, back]

end Site

/-- The site of a segment that was found and parsed. -/
theorem exists_site_of_locate {parts : Parts} {hz : Nat} {cs : List Char}
    (h : locate lead (segments cs) = .ok (parts, hz)) :
    ∃ s : Site lead, cs = s.text ∧ Numeral s.form.literal hz := by
  rcases isFirst_or_none lead (segments cs) with ⟨line, hline⟩ | hnone
  · rw [locate_of_isFirst hline] at h
    obtain ⟨earlier, later, heq, hfirst, hlead⟩ := hline
    obtain ⟨f, rfl, rfl, hnum⟩ := (parse_eq_ok_iff hlead).mp h
    let s : Site lead := ⟨earlier, f, later, hfirst, heq ▸ segmented_segments cs⟩
    refine ⟨s, ?_, hnum⟩
    rw [← flatten_segments s.text, s.segments_text, ← heq, flatten_segments]
  · rw [locate_of_none hnone] at h
    cases h

/-- **Nothing but a site is written to.** -/
theorem exists_site_of_write {lead text t : String} {hz : Nat} (h : write lead text hz = .ok t) :
    ∃ (s : Site lead.toList) (prior : Nat), text = String.ofList s.text ∧
      Numeral s.form.literal prior ∧ t = String.ofList (s.declare hz).text := by
  have hmap := map_write lead text hz
  rw [h] at hmap
  cases hloc : locate lead.toList (segments text.toList) with
  | error e => rw [hloc] at hmap; cases hmap
  | ok found =>
    obtain ⟨s, htext, hnum⟩ := exists_site_of_locate hloc
    have htext' : text = String.ofList s.text := by rw [← htext, String.ofList_toList]
    refine ⟨s, found.2, htext', hnum, ?_⟩
    rw [htext', s.write_text hnum] at h
    exact (Except.ok.inj h).symm

/-- **Nothing but a site is read**, for a lead-in that reaches into no ending. -/
theorem exists_site_of_read {lead text : String} {hz : Nat} (hcr : '\r' ∉ lead.toList)
    (hlf : '\n' ∉ lead.toList) (h : read lead text = .ok hz) :
    ∃ s : Site lead.toList, text = String.ofList s.text ∧ Numeral s.form.literal hz := by
  rw [read_eq, locate_lines hcr hlf] at h
  cases hloc : locate lead.toList (segments text.toList) with
  | error e => rw [hloc] at h; cases h
  | ok found =>
    rw [hloc] at h
    obtain rfl : found.2 = hz := Except.ok.inj h
    obtain ⟨s, htext, hnum⟩ := exists_site_of_locate hloc
    exact ⟨s, by rw [← htext, String.ofList_toList], hnum⟩

end SafeClock.Declaration
