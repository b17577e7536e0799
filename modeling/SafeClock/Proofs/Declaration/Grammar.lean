import SafeClock.Proofs.Declaration.Site

/-!
# Which headers declare a frequency

The reader and the writer of a declaration go through different lists, one of lines and one of
segments. This file gives the grammar of what the reader takes, and says that the writer takes the
same and refuses the rest for the same reason:

> **one grammar**: `read` answers a frequency exactly if the first line that starts with the
> lead-in has the form of `Grammar`, and `write` is met exactly where `read` is.

The lead-in must hold no part of a line's ending, else the two lists may lead to different places.
-/

set_option autoImplicit false

namespace SafeClock.Declaration

open SafeClock.Text

section line

variable {lead line : List Char} {hz : Nat}

/-- A line that declares a frequency, piece by piece. -/
def Grammar (lead line : List Char) (hz : Nat) : Prop :=
  ∃ mid start sign digits suffix finish comment,
    line = lead ++ (mid ++ '=' :: (start ++ sign ++ digits ++ suffix ++ finish ++ ';' :: comment)) ∧
    '=' ∉ mid ∧ (∀ c ∈ start, isBlank c = true) ∧ (∀ c ∈ finish, isBlank c = true) ∧
    IsSign sign ∧ digits ≠ [] ∧ (∀ c ∈ digits, c.isDigit = true) ∧
    (∀ c ∈ suffix, isSuffix c = true) ∧ ofDigits digits = hz ∧ hz < frequencyLimit

theorem grammar_iff_form :
    Grammar lead line hz ↔ ∃ f : Form, line = f.line lead ∧ Numeral f.literal hz := by
  constructor
  · rintro ⟨mid, start, sign, digits, suffix, finish, comment, rfl, hmid, hstart, hfinish, hsign,
      hne, hd, hs, hv, hlt⟩
    have hnum : Numeral (sign ++ digits ++ suffix) hz :=
      ⟨sign, digits, suffix, rfl, hsign, hne, hd, hs, hv, hlt⟩
    let f : Form :=
      { mid, start, literal := sign ++ digits ++ suffix, finish, comment
        equals_not_mem := hmid
        start_blank := hstart
        finish_blank := hfinish
        literal_ne_nil := hnum.ne_nil
        literal_solid := fun _ hc => (hnum.isNumeric hc).solid }
    exact ⟨f, by simp [f, Form.line_eq, Form.raw], hnum⟩
  · rintro ⟨f, rfl, sign, digits, suffix, hl, hsign, hne, hd, hs, hv, hlt⟩
    refine ⟨f.mid, f.start, sign, digits, suffix, f.finish, f.comment, ?_, f.equals_not_mem,
      f.start_blank, f.finish_blank, hsign, hne, hd, hs, hv, hlt⟩
    rw [Form.line_eq, Form.raw, hl]
    simp

/-- What holds of the line that is located holds of the first line that starts with the lead-in. -/
theorem locate_eq_iff {ls : List (List Char)} {e : Fault} (he : e ≠ .absent) :
    locate lead ls = .error e ↔ ∃ line, IsFirst lead line ls ∧ parse lead line = .error e := by
  constructor
  · intro h
    rcases isFirst_or_none lead ls with ⟨line, hline⟩ | hnone
    · exact ⟨line, hline, by rwa [locate_of_isFirst hline] at h⟩
    · rw [locate_of_none hnone] at h
      exact absurd (Except.error.inj h).symm he
  · rintro ⟨line, hline, hparse⟩
    rw [locate_of_isFirst hline, hparse]

end line

variable {lead text : String} {hz : Nat}

theorem read_eq_error_iff {e : Fault} :
    read lead text = .error e ↔ locate lead.toList (lines text.toList) = .error e := by
  rw [read_eq]
  cases locate lead.toList (lines text.toList) <;> simp [Except.map]

theorem read_eq_ok_iff :
    read lead text = .ok hz ↔
      ∃ line, IsFirst lead.toList line (lines text.toList) ∧ Grammar lead.toList line hz := by
  rw [read_eq]
  constructor
  · intro h
    rcases isFirst_or_none lead.toList (lines text.toList) with ⟨line, hline⟩ | hnone
    · rw [locate_of_isFirst hline] at h
      cases hparse : parse lead.toList line with
      | error e => rw [hparse] at h; cases h
      | ok found =>
        rw [hparse] at h
        obtain rfl : found.2 = hz := Except.ok.inj h
        obtain ⟨f, hf, -, hnum⟩ := (parse_eq_ok_iff hline.starts).mp hparse
        exact ⟨line, hline, grammar_iff_form.mpr ⟨f, hf, hnum⟩⟩
    · rw [locate_of_none hnone] at h
      cases h
  · rintro ⟨line, hline, hgrammar⟩
    obtain ⟨f, rfl, hnum⟩ := grammar_iff_form.mp hgrammar
    rw [locate_of_isFirst hline, f.parse_line _ hnum]
    rfl

/-- **The writer stops where the reader stops**, and for the same reason. -/
theorem map_write_eq (hcr : '\r' ∉ lead.toList) (hlf : '\n' ∉ lead.toList) (text : String)
    (hz : Nat) :
    (write lead text hz).map (fun _ => ()) = (read lead text).map fun _ => () := by
  have hlines := locate_lines hcr hlf text.toList
  rw [map_write, read_eq, hlines]
  cases locate lead.toList (segments text.toList) <;> rfl

theorem write_eq_error_of_read {e : Fault} (hcr : '\r' ∉ lead.toList) (hlf : '\n' ∉ lead.toList)
    (h : read lead text = .error e) (hz : Nat) : write lead text hz = .error e := by
  have hmap := map_write_eq hcr hlf text hz
  rw [h] at hmap
  cases hw : write lead text hz with
  | ok t =>
    rw [hw] at hmap
    cases hmap
  | error e' =>
    rw [hw] at hmap
    exact congrArg _ (Except.error.inj hmap)

/-- **The grammar of headers.** A frequency is read exactly from a text whose first line with the
lead-in is of the grammar, and written exactly to such a text. Of a fault there is one reason for
both: no line starts with the lead-in, or the first that does is no declaration, or its literal has
no place because blanks, and nothing else, stand between `=` and `;`. -/
theorem read_write_grammar (hcr : '\r' ∉ lead.toList)
    (hlf : '\n' ∉ lead.toList) :
    (∀ hz, read lead text = .ok hz ↔
      ∃ line, IsFirst lead.toList line (lines text.toList) ∧ Grammar lead.toList line hz) ∧
    (∀ hz, (∃ t, write lead text hz = .ok t) ↔ ∃ prior, read lead text = .ok prior) ∧
    (∀ hz e, write lead text hz = .error e ↔ read lead text = .error e) ∧
    (read lead text = .error .absent ↔ ∀ line ∈ lines text.toList, ¬lead.toList <+: line) ∧
    (read lead text = .error .blankLiteral ↔
      ∃ line, IsFirst lead.toList line (lines text.toList) ∧ NoPlace lead.toList line) := by
  refine ⟨fun hz => read_eq_ok_iff, fun hz => ?_, fun hz e => ?_, ?_, ?_⟩
  · have hmap := map_write_eq hcr hlf text hz
    cases hw : write lead text hz <;> cases hr : read lead text <;>
      simp [hw, hr, Except.map] at hmap ⊢
  · have hmap := map_write_eq hcr hlf text hz
    cases hw : write lead text hz <;> cases hr : read lead text <;>
      simp_all [Except.map]
  · rw [read_eq_error_iff]
    constructor
    · intro h
      rcases isFirst_or_none lead.toList (lines text.toList) with ⟨line, hline⟩ | hnone
      · rw [locate_of_isFirst hline] at h
        exact absurd h (parse_ne_absent hline.starts)
      · exact hnone
    · exact locate_of_none
  · rw [read_eq_error_iff, locate_eq_iff (by simp)]
    constructor
    · rintro ⟨line, hline, hparse⟩
      exact ⟨line, hline, (parse_eq_blankLiteral_iff hline.starts).mp hparse⟩
    · rintro ⟨line, hline, hplace⟩
      exact ⟨line, hline, (parse_eq_blankLiteral_iff hline.starts).mpr hplace⟩

/-- A line with a carriage return before its line feed, a sign, leading zeros and two suffix
letters. A second declaration and an `=` in the comment do not count. -/
theorem read_write_grammar_at_suffix :
    let text := "a = 1;\r\nF = +0042uL ; // G=3;\r\nF = 7;"
    '\r' ∉ "F".toList ∧ '\n' ∉ "F".toList ∧ read "F" text = .ok 42 ∧
      (∃ t, write "F" text 8 = .ok t) ∧ read "F" text ≠ .error .blankLiteral := by
  intro text
  obtain ⟨hread, hwrite, -⟩ := @read_write_grammar "F" text (by decide) (by decide)
  have hfirst : IsFirst "F".toList "F = +0042uL ; // G=3;".toList (lines text.toList) :=
    ⟨["a = 1;".toList], ["F = 7;".toList], by decide, by decide, by decide⟩
  have hgrammar : Grammar "F".toList "F = +0042uL ; // G=3;".toList 42 :=
    ⟨[' '], [' '], ['+'], ['0', '0', '4', '2'], ['u', 'L'], [' '], " // G=3;".toList,
      by decide, by decide, List.all_eq_true.mp rfl, List.all_eq_true.mp rfl, .inr rfl, by decide,
      List.all_eq_true.mp rfl, List.all_eq_true.mp rfl, by decide, by decide⟩
  have hok := (hread 42).mpr ⟨_, hfirst, hgrammar⟩
  exact ⟨by decide, by decide, hok, (hwrite 8).mpr ⟨42, hok⟩, by simp [hok]⟩

end SafeClock.Declaration
