import SafeClock.Proofs.Declaration.Numeral

/-!
# The form of a declaration

`Declaration.parse` searches a line for the first `=`, for the next `;`, and trims and reads what
stands between them. This file says what a line looks like on which all of that succeeds:

> **the form**: a line is parsed exactly if it is `lead mid = start literal finish ; comment`,
> where `mid` holds no `=`, `start` and `finish` are blanks, and `literal` is a numeral
> (`parse_eq_ok_iff`).

Every line that starts with the lead-in is of one of three shapes (`Tail`), and there is one
equation for what `cut` does with each. Blanks added behind a line change nothing but the end of
its last part (`parse_append_blank`), so that it does not matter whether a line is read with its
ending.
-/

set_option autoImplicit false

namespace SafeClock.Declaration

open SafeClock.Text

variable {lead : List Char} {hz : Nat}

/-! ## What stands behind the lead-in -/

section cut

variable {line mid raw value comment rest blanks : List Char} {c : Char}

/-- What can stand on a line behind the lead-in. -/
inductive Tail : List Char → Prop
  | bare {rest : List Char} (h : '=' ∉ rest) : Tail rest
  | unclosed {mid value : List Char} (hmid : '=' ∉ mid) (hvalue : ';' ∉ value) :
      Tail (mid ++ '=' :: value)
  | closed {mid raw comment : List Char} (hmid : '=' ∉ mid) (hraw : ';' ∉ raw) :
      Tail (mid ++ '=' :: (raw ++ ';' :: comment))

theorem tail_cases (rest : List Char) : Tail rest := by
  by_cases heq : '=' ∈ rest
  · obtain ⟨mid, value, rfl, hmid⟩ := List.eq_append_cons_of_mem heq
    by_cases hsemi : ';' ∈ value
    · obtain ⟨raw, comment, rfl, hraw⟩ := List.eq_append_cons_of_mem hsemi
      exact .closed hmid hraw
    · exact .unclosed hmid hsemi
  · exact .bare heq

theorem bne_of_mem (h : c ∉ value) : ∀ d ∈ value, (d != c) = true := by
  intro d hd
  rw [bne_iff_ne]
  rintro rfl
  exact h hd

theorem takeWhile_ne_append (h : c ∉ value) (rest : List Char) :
    (value ++ c :: rest).takeWhile (· != c) = value := by
  rw [List.takeWhile_append_of_pos (bne_of_mem h), List.takeWhile_cons_of_neg (by simp),
    List.append_nil]

theorem dropWhile_ne_append (h : c ∉ value) (rest : List Char) :
    (value ++ c :: rest).dropWhile (· != c) = c :: rest := by
  rw [List.dropWhile_append_of_pos (bne_of_mem h), List.dropWhile_cons_of_neg (by simp)]

theorem dropWhile_ne_of_not_mem (h : c ∉ value) : value.dropWhile (· != c) = [] :=
  List.dropWhile_eq_nil_iff.mpr (bne_of_mem h)

theorem cut_bare (h : '=' ∉ rest) :
    cut lead (lead ++ rest) = .error (malformed [] (lead ++ rest)) := by
  simp only [cut, List.drop_left, dropWhile_ne_of_not_mem h]

theorem cut_unclosed (hmid : '=' ∉ mid) (hvalue : ';' ∉ value) :
    cut lead (lead ++ (mid ++ '=' :: value)) =
      .error (malformed value (lead ++ (mid ++ '=' :: value))) := by
  simp only [cut, List.drop_left, dropWhile_ne_append hmid, dropWhile_ne_of_not_mem hvalue]

theorem cut_closed (hmid : '=' ∉ mid) (hraw : ';' ∉ raw) :
    cut lead (lead ++ (mid ++ '=' :: (raw ++ ';' :: comment))) =
      if raw ≠ [] ∧ raw.all isBlank then .error .blankLiteral
      else .ok ⟨lead ++ mid ++ '=' :: (cutBlanks raw).1, (cutBlanks raw).2.1,
        (cutBlanks raw).2.2 ++ ';' :: comment⟩ := by
  simp only [cut, List.drop_left, List.take_left, dropWhile_ne_append hmid,
    takeWhile_ne_append hmid, dropWhile_ne_append hraw, takeWhile_ne_append hraw]

/-! ## Blanks behind a line -/

theorem malformed_append_blank (h : ∀ c ∈ blanks, isBlank c = true) (literal line : List Char) :
    malformed literal (line ++ blanks) = malformed literal line := by
  rw [malformed, trimEnd_append_of_blank h, malformed]

/-- A part of a declaration with more text behind it. -/
def Parts.extend (p : Parts) (more : List Char) : Parts := { p with after := p.after ++ more }

/-- **Blanks behind a line change no fault and no number.** -/
theorem parse_append_blank (hlead : lead <+: line) (h : ∀ c ∈ blanks, isBlank c = true) :
    parse lead (line ++ blanks) =
      (parse lead line).map fun found => (found.1.extend blanks, found.2) := by
  obtain ⟨rest, rfl⟩ := hlead
  have heq : '=' ∉ blanks := fun hmem => absurd (h _ hmem) (by decide)
  have hsemi : ';' ∉ blanks := fun hmem => absurd (h _ hmem) (by decide)
  rw [List.append_assoc]
  cases tail_cases rest with
  | bare hrest =>
    have hboth : '=' ∉ rest ++ blanks := by simp [hrest, heq]
    rw [parse, parse, cut_bare hrest, cut_bare hboth, ← List.append_assoc,
      malformed_append_blank h]
    rfl
  | @unclosed mid value hmid hvalue =>
    have hboth : ';' ∉ value ++ blanks := by simp [hvalue, hsemi]
    have hline : mid ++ '=' :: value ++ blanks = mid ++ '=' :: (value ++ blanks) := by simp
    rw [hline, parse, parse, cut_unclosed hmid hvalue, cut_unclosed hmid hboth, ← hline,
      ← List.append_assoc, malformed_append_blank h, malformed, malformed,
      trim_append_of_blank h]
    rfl
  | @closed mid raw comment hmid hraw =>
    -- The blanks go to the comment, which is not looked at.
    have hline : mid ++ '=' :: (raw ++ ';' :: comment) ++ blanks =
        mid ++ '=' :: (raw ++ ';' :: (comment ++ blanks)) := by simp
    rw [hline, parse, parse, cut_closed hmid hraw, cut_closed hmid hraw, ← hline,
      ← List.append_assoc]
    split
    · next e he =>
      split at he
      · next hblank =>
        cases he
        rw [if_pos hblank]
        rfl
      · cases he
    · next parts he =>
      split at he
      · cases he
      · next hblank =>
        cases he
        rw [if_neg hblank]
        simp only [malformed_append_blank h]
        cases frequency? (cutBlanks raw).2.1 with
        | none => rfl
        | some hz => simp [Except.map, Parts.extend]

end cut

/-! ## Lines that are parsed -/

/-- A line in the form of a declaration. Neither a blank nor a `;` stands in the literal. -/
structure Form where
  mid : List Char
  start : List Char
  literal : List Char
  finish : List Char
  comment : List Char
  equals_not_mem : '=' ∉ mid
  start_blank : ∀ c ∈ start, isBlank c = true
  finish_blank : ∀ c ∈ finish, isBlank c = true
  literal_ne_nil : literal ≠ []
  literal_solid : ∀ c ∈ literal, isBlank c = false ∧ c ≠ ';'

namespace Form

variable (f : Form)

/-- The form, cut at its literal. -/
def parts (lead : List Char) : Parts where
  before := lead ++ f.mid ++ '=' :: f.start
  literal := f.literal
  after := f.finish ++ ';' :: f.comment

/-- The line that has the form. -/
def line (lead : List Char) : List Char := (f.parts lead).text

/-- The form with the decimal of a number in the place of its literal. -/
def declare (hz : Nat) : Form :=
  { f with
    literal := decimal hz
    literal_ne_nil := decimal_ne_nil hz
    literal_solid := fun _ hc =>
      have hnum : IsNumeric _ := .inr (.inl (isDigit_of_mem_decimal hc))
      hnum.solid }

/-- What stands between `=` and `;`. -/
def raw : List Char := f.start ++ f.literal ++ f.finish

theorem line_eq (lead : List Char) :
    f.line lead = lead ++ (f.mid ++ '=' :: (f.raw ++ ';' :: f.comment)) := by
  simp [line, parts, Parts.text, raw]

theorem semicolon_not_mem_raw : ';' ∉ f.raw := by
  intro hmem
  rcases List.mem_append.mp hmem with hmem | hmem
  · rcases List.mem_append.mp hmem with hmem | hmem
    · exact absurd (f.start_blank _ hmem) (by decide)
    · exact (f.literal_solid _ hmem).2 rfl
  · exact absurd (f.finish_blank _ hmem) (by decide)

theorem raw_not_blank : ¬(f.raw ≠ [] ∧ f.raw.all isBlank) := by
  rintro ⟨-, hall⟩
  obtain ⟨c, hc⟩ := List.exists_mem_of_ne_nil _ f.literal_ne_nil
  have hblank := List.all_eq_true.mp hall c (by simp [raw, hc])
  exact absurd hblank (by simp [(f.literal_solid c hc).1])

theorem cutBlanks_raw : cutBlanks f.raw = (f.start, f.literal, f.finish) := by
  have hne : ∀ c ∈ f.literal, isBlank c = false := fun c hc => (f.literal_solid c hc).1
  have hsplit : f.raw.takeWhile isBlank = f.start ∧
      f.raw.dropWhile isBlank = f.literal ++ f.finish := by
    rw [raw, List.append_assoc, List.takeWhile_append_of_pos f.start_blank,
      List.dropWhile_append_of_pos f.start_blank]
    -- The first character of the literal ends the blanks before it.
    cases hl : f.literal with
    | nil => exact absurd hl f.literal_ne_nil
    | cons c rest => simp [hne c (by simp [hl])]
  have hend : trimEnd (f.literal ++ f.finish) = f.literal := by
    rw [trimEnd_append_of_blank f.finish_blank]
    exact dropEndWhile_of_forall_neg hne
  rw [cutBlanks, hsplit.1, hsplit.2, hend, List.drop_left]

/-- **A line of the form is parsed**, and cut where the form says. -/
theorem parse_line (lead : List Char) (h : Numeral f.literal hz) :
    parse lead (f.line lead) = .ok (f.parts lead, hz) := by
  rw [line_eq, parse, cut_closed f.equals_not_mem f.semicolon_not_mem_raw, if_neg f.raw_not_blank,
    f.cutBlanks_raw]
  simp only [frequency?_eq_some_iff.mpr h]
  rfl

theorem lead_prefix_line (lead : List Char) : lead <+: f.line lead := ⟨_, (f.line_eq lead).symm⟩

/-- The form of a text between `=` and `;` that holds a numeral. -/
def ofRaw (mid raw comment : List Char) (hmid : '=' ∉ mid) (h : Numeral (cutBlanks raw).2.1 hz) :
    Form where
  mid := mid
  start := (cutBlanks raw).1
  literal := (cutBlanks raw).2.1
  finish := (cutBlanks raw).2.2
  comment := comment
  equals_not_mem := hmid
  start_blank := fun _ hc => List.mem_takeWhile_imp hc
  finish_blank := by
    obtain ⟨blanks, hsplit, hblanks⟩ := exists_dropEndWhile isBlank (raw.dropWhile isBlank)
    have hfinish : (cutBlanks raw).2.2 = blanks := by
      show (raw.dropWhile isBlank).drop (trimEnd (raw.dropWhile isBlank)).length = blanks
      rw [trimEnd]
      generalize dropEndWhile isBlank (raw.dropWhile isBlank) = front at hsplit ⊢
      rw [hsplit, List.drop_left]
    rwa [hfinish]
  literal_ne_nil := h.ne_nil
  literal_solid := fun _ hc => (h.isNumeric hc).solid

theorem line_ofRaw {lead mid raw comment : List Char} (hmid : '=' ∉ mid)
    (h : Numeral (cutBlanks raw).2.1 hz) :
    (ofRaw mid raw comment hmid h).line lead = lead ++ (mid ++ '=' :: (raw ++ ';' :: comment)) := by
  have hraw : (ofRaw mid raw comment hmid h).raw = raw := by
    show (cutBlanks raw).1 ++ (cutBlanks raw).2.1 ++ (cutBlanks raw).2.2 = raw
    rw [List.append_assoc, cutBlanks_append]
  rw [line_eq, hraw]
  rfl

end Form

/-- What a line that starts with the lead-in is parsed as. -/
inductive Parsed (lead : List Char) : List Char → Except Fault (Parts × Nat) → Prop
  | bare {rest : List Char} (h : '=' ∉ rest) :
      Parsed lead (lead ++ rest) (.error (malformed [] (lead ++ rest)))
  | unclosed {mid value : List Char} (hmid : '=' ∉ mid) (hvalue : ';' ∉ value) :
      Parsed lead (lead ++ (mid ++ '=' :: value))
        (.error (malformed value (lead ++ (mid ++ '=' :: value))))
  /-- Blanks, and nothing else, between `=` and `;`. -/
  | noPlace {mid blanks comment : List Char} (hmid : '=' ∉ mid) (hsemi : ';' ∉ blanks)
      (hne : blanks ≠ []) (hblank : ∀ c ∈ blanks, isBlank c = true) :
      Parsed lead (lead ++ (mid ++ '=' :: (blanks ++ ';' :: comment))) (.error .blankLiteral)
  | misread {mid raw comment : List Char} (hmid : '=' ∉ mid) (hraw : ';' ∉ raw)
      (h : frequency? (cutBlanks raw).2.1 = none) :
      Parsed lead (lead ++ (mid ++ '=' :: (raw ++ ';' :: comment)))
        (.error (malformed (cutBlanks raw).2.1 (lead ++ (mid ++ '=' :: (raw ++ ';' :: comment)))))
  | form (f : Form) {hz : Nat} (h : Numeral f.literal hz) :
      Parsed lead (f.line lead) (.ok (f.parts lead, hz))

variable {line : List Char}

theorem parsed (hlead : lead <+: line) : Parsed lead line (parse lead line) := by
  obtain ⟨rest, rfl⟩ := hlead
  cases tail_cases rest with
  | bare hrest =>
    rw [parse, cut_bare hrest]
    exact .bare hrest
  | unclosed hmid hvalue =>
    rw [parse, cut_unclosed hmid hvalue]
    exact .unclosed hmid hvalue
  | @closed mid raw comment hmid hraw =>
    rw [parse, cut_closed hmid hraw]
    by_cases hblank : raw ≠ [] ∧ raw.all isBlank
    · rw [if_pos hblank]
      exact .noPlace hmid hraw hblank.1 (List.all_eq_true.mp hblank.2)
    · rw [if_neg hblank]
      cases hfreq : frequency? (cutBlanks raw).2.1 with
      | none =>
        simp only [hfreq]
        exact .misread hmid hraw hfreq
      | some hz =>
        simp only [hfreq]
        have hnum := frequency?_eq_some_iff.mp hfreq
        rw [← Form.line_ofRaw hmid hnum]
        exact .form (.ofRaw mid raw comment hmid hnum) hnum

/-- **A line is parsed exactly if it has the form.** -/
theorem parse_eq_ok_iff {p : Parts} (hlead : lead <+: line) :
    parse lead line = .ok (p, hz) ↔
      ∃ f : Form, line = f.line lead ∧ p = f.parts lead ∧ Numeral f.literal hz := by
  constructor
  · intro h
    have hparsed := parsed hlead
    rw [h] at hparsed
    cases hparsed with
    | form f hnum => exact ⟨f, rfl, rfl, hnum⟩
  · rintro ⟨f, rfl, rfl, h⟩
    exact f.parse_line lead h

/-- A line that has blanks, and nothing else, in the place of its literal. -/
def NoPlace (lead line : List Char) : Prop :=
  ∃ mid blanks comment, line = lead ++ (mid ++ '=' :: (blanks ++ ';' :: comment)) ∧
    '=' ∉ mid ∧ ';' ∉ blanks ∧ blanks ≠ [] ∧ ∀ c ∈ blanks, isBlank c = true

theorem parse_eq_blankLiteral_iff (hlead : lead <+: line) :
    parse lead line = .error .blankLiteral ↔ NoPlace lead line := by
  constructor
  · intro h
    have hparsed := parsed hlead
    rw [h] at hparsed
    cases hparsed with
    | noPlace hmid hsemi hne hblank => exact ⟨_, _, _, rfl, hmid, hsemi, hne, hblank⟩
  · rintro ⟨mid, blanks, comment, rfl, hmid, hsemi, hne, hblank⟩
    rw [parse, cut_closed hmid hsemi, if_pos ⟨hne, List.all_eq_true.mpr hblank⟩]

/-- A line that starts with the lead-in is not reported as absent. -/
theorem parse_ne_absent (hlead : lead <+: line) : parse lead line ≠ .error .absent := by
  intro h
  have hparsed := parsed hlead
  rw [h] at hparsed
  cases hparsed

end SafeClock.Declaration
