import SafeClock.Proofs.Header

/-!
# The laws of reading and writing

A declaration is a view of the text it stands in: `read` looks at it and `write` puts another
frequency into it. The two obey the laws that such a pair should:

> **what was written is read** (`read_of_write`), **the last write counts** (`write_of_write`), and
> **to write what was read changes nothing** if the literal was canonical, and only then
> (`write_eq_self_iff`).

The first two hold for every lead-in, because a write that is met leads to a declaration whichever
way one looks for it. The third begins with a read and needs a lead-in that reaches into no ending.
-/

set_option autoImplicit false

namespace SafeClock

open SafeClock.Text

namespace Declaration

variable {lead text t : String} {a hz : Nat}

/-- The literal of the declaration that is read. -/
def literal? (lead text : String) : Option (List Char) :=
  match locate lead.toList (lines text.toList) with
  | .ok (parts, _) => some parts.literal
  | .error _ => none

theorem literal?_text (s : Site lead.toList) (h : Numeral s.form.literal hz) :
    literal? lead (String.ofList s.text) = some s.form.literal := by
  obtain ⟨parts, hparts, hliteral⟩ := s.locate_lines_text h
  rw [literal?, String.toList_ofList, hparts, ← hliteral]

theorem read_of_write (ha : a < frequencyLimit) (h : write lead text a = .ok t) :
    read lead t = .ok a := by
  obtain ⟨s, prior, -, -, rfl⟩ := exists_site_of_write h
  exact (s.declare a).read_text (numeral_decimal ha)

theorem write_of_write (ha : a < frequencyLimit) (h : write lead text a = .ok t) (b : Nat) :
    write lead t b = write lead text b := by
  obtain ⟨s, prior, rfl, hprior, rfl⟩ := exists_site_of_write h
  rw [(s.declare a).write_text (numeral_decimal ha), s.write_text hprior, s.declare_declare]

theorem write_eq_self_iff (hcr : '\r' ∉ lead.toList) (hlf : '\n' ∉ lead.toList)
    (h : read lead text = .ok hz) :
    write lead text hz = .ok text ↔ literal? lead text = some (decimal hz) := by
  obtain ⟨s, rfl, hnum⟩ := exists_site_of_read hcr hlf h
  rw [s.write_text hnum, literal?_text s hnum, Except.ok.injEq, String.ofList_inj,
    s.text_declare_eq_iff, Option.some.injEq]

end Declaration

namespace Header

variable {h : Header} {cwd : Place} {tree tree' : FileTree} {a : Nat}

theorem read_of_write (ha : a < frequencyLimit) (hw : h.write cwd a tree = .ok tree') :
    h.read cwd tree' = .ok a := by
  obtain ⟨text, updated, -, hwrite, htext⟩ := text_of_write hw
  exact read_eq_ok htext (Declaration.read_of_write ha hwrite)

/-- A write of what was just written is met and changes no file. -/
theorem write_again (ha : a < frequencyLimit) (hw : h.write cwd a tree = .ok tree') :
    h.write cwd a tree' = .ok tree' := by
  obtain ⟨text, updated, -, hwrite, htext⟩ := text_of_write hw
  exact write_eq_self htext ((Declaration.write_of_write ha hwrite a).trans hwrite)

end Header

namespace Declaration

/-- **A declaration is a lens.** What was written is read; a second write does what it would have
done without the first, so that writing twice is writing once, in a text and in a tree of files;
and to write what was read leaves the text as it was exactly if its literal is the decimal of the
frequency. -/
theorem lens_laws (lead text : String) :
    (∀ a t, a < frequencyLimit → write lead text a = .ok t →
      read lead t = .ok a ∧ (∀ b, write lead t b = write lead text b) ∧ write lead t a = .ok t) ∧
    (∀ path cwd tree tree' a, a < frequencyLimit →
      (Header.mk path lead).write cwd a tree = .ok tree' →
      (Header.mk path lead).read cwd tree' = .ok a ∧
        (Header.mk path lead).write cwd a tree' = .ok tree') ∧
    (∀ hz, '\r' ∉ lead.toList → '\n' ∉ lead.toList → read lead text = .ok hz →
      (write lead text hz = .ok text ↔ literal? lead text = some (decimal hz))) := by
  refine ⟨fun a t ha hw => ?_, fun path cwd tree tree' a ha hw => ?_, fun hz hcr hlf hr => ?_⟩
  · have hagain := write_of_write ha hw
    exact ⟨read_of_write ha hw, hagain, (hagain a).trans hw⟩
  · exact ⟨Header.read_of_write ha hw, Header.write_again ha hw⟩
  · exact write_eq_self_iff hcr hlf hr

/-- A literal with a suffix is read and not written back. Once another frequency was written, the
way back leads to the canonical literal. -/
theorem lens_laws_at_suffix :
    let text := "a\r\nF = 12L; // Hz\r\n"
    let h : Header := ⟨"h", "F"⟩
    let tree := FileTree.empty.put ["h"] (.file text.toUTF8 false)
    read "F" text = .ok 12 ∧ write "F" text 12 ≠ .ok text ∧
      write "F" "a\r\nF = 700; // Hz\r\n" 12 = .ok "a\r\nF = 12; // Hz\r\n" ∧
      ∃ tree', h.write [] 700 tree = .ok tree' ∧ h.write [] 700 tree' = .ok tree' := by
  intro text h tree
  obtain ⟨hwrites, htrees, hback⟩ := lens_laws "F" text
  have hread : read "F" text = .ok 12 := by decide
  have hwrite : write "F" text 700 = .ok "a\r\nF = 700; // Hz\r\n" := by decide
  have hliteral : literal? "F" text ≠ some (decimal 12) := by decide
  have hfind : tree.find [] h.path = .ok (["h"], .file text.toUTF8 false) :=
    FileTree.find_put_name rfl (by decide) rfl
  have htext := Header.text_eq_ok_iff.mpr (FileTree.readText_of_find hfind)
  obtain ⟨-, hagain, -⟩ := hwrites 700 _ (by decide) hwrite
  obtain ⟨tree', htree, -⟩ := Header.exists_write htext hwrite
  refine ⟨hread, ?_, ?_, tree', htree, (htrees _ _ _ _ 700 (by decide) htree).2⟩
  · exact fun heq => hliteral ((hback 12 (by decide) (by decide) hread).mp heq)
  · exact (hagain 12).trans (by decide)

end Declaration

end SafeClock
