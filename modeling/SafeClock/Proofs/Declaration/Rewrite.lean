import SafeClock.Proofs.Declaration.Site

/-!
# What a write leaves alone

A write puts a whole text together again from pieces. This file says that it is the same text but
for one literal:

> **the frame**: if `write` is met, text and result are `before lead mid = start … finish ; behind`
> with the old literal in the gap of the one and the decimal in that of the other, and the line of
> the gap is the first with the lead-in.

No line is gained or lost and no ending is changed, and a line behind that starts with the lead-in
as well stays as it was. Nothing is assumed of the lead-in.
-/

set_option autoImplicit false

namespace SafeClock.Declaration

open SafeClock.Text

theorem Form.ending_line (f : Form) (lead : List Char) :
    ending (f.line lead) = ending f.comment := by
  have hassoc : f.line lead = (lead ++ f.mid ++ '=' :: f.raw) ++ ';' :: f.comment := by
    rw [f.line_eq]
    simp
  rw [hassoc, ending_append_cons (by decide) (by decide)]

namespace Site

variable {lead : List Char} (s : Site lead)

theorem complete_of_mem_earlier : ∀ l ∈ s.earlier, Complete l :=
  (segmented_append_cons_iff.mp s.segmented).1

/-- What stands before the line of the declaration falls into the segments before it. -/
theorem segments_flatten_earlier : segments s.earlier.flatten = s.earlier :=
  (segmented_of_complete s.complete_of_mem_earlier).segments_flatten

theorem map_ending_declare (hz : Nat) :
    (segments (s.declare hz).text).map ending = (segments s.text).map ending := by
  have hline : ending ((s.declare hz).form.line lead) = ending (s.form.line lead) := by
    rw [Form.ending_line, Form.ending_line]
    rfl
  rw [segments_text, segments_text, List.map_append, List.map_append, List.map_cons, List.map_cons,
    hline]
  rfl

theorem length_lines_declare (hz : Nat) :
    (lines (s.declare hz).text).length = (lines s.text).length := by
  have hlen := congrArg List.length (s.map_ending_declare hz)
  simpa only [lines, List.length_map] using hlen

end Site

/-- **A write touches nothing but the literal.** -/
theorem write_touches_literal {lead text t : String} {hz : Nat} (h : write lead text hz = .ok t) :
    ∃ before mid start literal finish behind : List Char,
      text.toList = before ++ lead.toList ++ mid ++ '=' :: start ++ literal ++
        (finish ++ ';' :: behind) ∧
      t.toList = before ++ lead.toList ++ mid ++ '=' :: start ++ decimal hz ++
        (finish ++ ';' :: behind) ∧
      literal ≠ [] ∧ (∀ c ∈ literal, isBlank c = false) ∧ ';' ∉ literal ∧ '\n' ∉ literal ∧
      (before = [] ∨ ∃ xs, before = xs ++ ['\n']) ∧
      (∀ line ∈ segments before, ¬lead.toList <+: line) ∧
      '=' ∉ mid ∧ '\n' ∉ mid ∧ (∀ c ∈ start, isBlank c = true) ∧ (∀ c ∈ finish, isBlank c = true) ∧
      ';' ∉ start ++ literal ++ finish ∧
      (∃ old new later, segments text.toList = segments before ++ old :: later ∧
        segments t.toList = segments before ++ new :: later) ∧
      (lines t.toList).length = (lines text.toList).length ∧
      (segments t.toList).map ending = (segments text.toList).map ending := by
  obtain ⟨s, prior, rfl, -, rfl⟩ := exists_site_of_write h
  rw [String.toList_ofList, String.toList_ofList]
  have hsolid := s.form.literal_solid
  have hnewline := s.newline_not_mem
  refine ⟨s.earlier.flatten, s.form.mid, s.form.start, s.form.literal, s.form.finish,
    s.form.comment ++ s.later.flatten, ?_, ?_, s.form.literal_ne_nil, fun c hc => (hsolid c hc).1,
    fun hmem => (hsolid _ hmem).2 rfl, fun hmem => hnewline (List.mem_append_right _ hmem),
    flatten_of_complete s.complete_of_mem_earlier, ?_, s.form.equals_not_mem, ?_,
    s.form.start_blank, s.form.finish_blank, s.form.semicolon_not_mem_raw, ?_,
    s.length_lines_declare hz, s.map_ending_declare hz⟩
  · simp [Site.text, Site.front, Site.back, Form.parts]
  · simp [Site.text_declare, Site.front, Site.back, Form.parts]
  · rw [s.segments_flatten_earlier]
    exact s.first
  · exact fun hmem => hnewline (by simp [Form.parts, hmem])
  · refine ⟨s.form.line lead.toList, (s.form.declare hz).line lead.toList, s.later, ?_, ?_⟩
    · rw [s.segments_flatten_earlier, s.segments_text]
    · rw [s.segments_flatten_earlier]
      exact (s.declare hz).segments_text

/-- The second line starts with the lead-in too, and its comment holds an `=` and a `;`. The
carriage returns stay, and no line feed is added at the end. -/
theorem write_touches_literal_of_first :
    let text := "a\r\nF = 007; // F = 1;\r\nF = 7;"
    let t := "a\r\nF = 12345; // F = 1;\r\nF = 7;"
    write "F" text 12345 = .ok t ∧ (lines t.toList).length = (lines text.toList).length ∧
      (segments t.toList).map ending = (segments text.toList).map ending := by
  intro text t
  have h : write "F" text 12345 = .ok t := by decide
  obtain ⟨_, _, _, _, _, _, -, -, -, -, -, -, -, -, -, -, -, -, -, -, hlines, hendings⟩ :=
    write_touches_literal h
  exact ⟨h, hlines, hendings⟩

end SafeClock.Declaration
