import SafeClock.Header
import SafeClock.Proofs.Declaration.Grammar
import SafeClock.Proofs.System.FileTree

/-!
# What a header's file holds after a write

Declaring a frequency in a header is a read of its file, a change of the text and, if the text did
change, a write of the file. Nothing on that way can fail once the file has been read and its text
holds a declaration:

> **the file follows the text**: a header whose text can be rewritten is rewritten, and holds the
> rewritten text (`exists_write`); nothing else is written to (`text_of_write`), and one that cannot
> be read is refused for the reader's reason (`write_eq_error`).
-/

set_option autoImplicit false

namespace SafeClock.Header

variable {h : Header} {cwd : Place} {tree tree' : FileTree} {text updated : String} {hz : Nat}

theorem text_eq_ok_iff : h.text cwd tree = .ok text ↔ tree.readText cwd h.path = .ok text := by
  rw [Header.text]
  cases tree.readText cwd h.path <;> simp [Except.mapError]

theorem ne_empty_of_write {lead : String} (hw : Declaration.write lead text hz = .ok updated) :
    text ≠ "" := by
  rintro rfl
  obtain ⟨s, prior, htext, -, -⟩ := Declaration.exists_site_of_write hw
  have hnil : s.text = [] := by
    rw [← String.toList_ofList (l := s.text), ← htext]
    rfl
  have hliteral : s.form.literal = [] := by
    simp only [Declaration.Site.text, List.append_eq_nil_iff] at hnil
    exact hnil.1.2
  exact s.form.literal_ne_nil hliteral

theorem exists_write (ht : h.text cwd tree = .ok text)
    (hw : Declaration.write h.lead text hz = .ok updated) :
    ∃ tree', h.write cwd hz tree = .ok tree' ∧ h.text cwd tree' = .ok updated := by
  rw [write, ht]
  simp only [hw]
  by_cases heq : updated = text
  · rw [if_pos heq]
    exact ⟨tree, rfl, heq ▸ ht⟩
  · rw [if_neg heq]
    obtain ⟨tree', -, hwrite, hread, -⟩ :=
      FileTree.readText_write (text_eq_ok_iff.mp ht) (ne_empty_of_write hw) updated
    exact ⟨tree', by rw [hwrite]; rfl, text_eq_ok_iff.mpr hread⟩

/-- A write that is met went from one text to the other. -/
theorem text_of_write (hw : h.write cwd hz tree = .ok tree') :
    ∃ text updated, h.text cwd tree = .ok text ∧ Declaration.write h.lead text hz = .ok updated ∧
      h.text cwd tree' = .ok updated := by
  cases ht : h.text cwd tree with
  | error e =>
    rw [write, ht] at hw
    cases hw
  | ok text =>
    cases hd : Declaration.write h.lead text hz with
    | error e =>
      simp only [write, ht, hd] at hw
      cases hw
    | ok updated =>
      obtain ⟨found, hfound, hupdated⟩ := exists_write ht hd
      obtain rfl : found = tree' := Except.ok.inj (hfound.symm.trans hw)
      exact ⟨text, updated, rfl, hd, hupdated⟩

/-- A write that changes no text changes no file. -/
theorem write_eq_self (ht : h.text cwd tree = .ok text)
    (hw : Declaration.write h.lead text hz = .ok text) : h.write cwd hz tree = .ok tree := by
  simp only [write, ht, hw, if_true]

theorem read_eq_ok (ht : h.text cwd tree = .ok text)
    (hr : Declaration.read h.lead text = .ok hz) : h.read cwd tree = .ok hz := by
  rw [read, ht]
  simp only [hr]
  rfl

/-- A read that is met found a text. -/
theorem text_of_read (hr : h.read cwd tree = .ok hz) :
    ∃ text, h.text cwd tree = .ok text ∧ Declaration.read h.lead text = .ok hz := by
  cases ht : h.text cwd tree with
  | error e =>
    rw [read, ht] at hr
    cases hr
  | ok text =>
    simp only [read, ht] at hr
    cases hd : Declaration.read h.lead text with
    | error e =>
      rw [hd] at hr
      cases hr
    | ok found =>
      rw [hd] at hr
      obtain rfl : found = hz := Except.ok.inj hr
      exact ⟨text, rfl, hd⟩

/-- **What cannot be read cannot be written to**, for the same reason. -/
theorem write_eq_error {fault : Fault} (hcr : '\r' ∉ h.lead.toList) (hlf : '\n' ∉ h.lead.toList)
    (hr : h.read cwd tree = .error fault) (hz : Nat) : h.write cwd hz tree = .error fault := by
  cases ht : h.text cwd tree with
  | error e =>
    rw [read, ht] at hr
    rw [write, ht]
    exact congrArg _ (Except.error.inj hr)
  | ok text =>
    simp only [read, ht] at hr
    cases hd : Declaration.read h.lead text with
    | ok prior =>
      rw [hd] at hr
      cases hr
    | error e =>
      rw [hd] at hr
      obtain rfl : .undeclared e = fault := Except.error.inj hr
      simp only [write, ht, Declaration.write_eq_error_of_read hcr hlf hd]

end SafeClock.Header
