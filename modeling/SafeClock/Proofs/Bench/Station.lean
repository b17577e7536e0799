import SafeClock.Bench.Station
import SafeClock.Proofs.Bench.Dialogue
import SafeClock.Proofs.Header

/-!
# Sessions on one header

Whoever has a header reads the declared frequency and declares others, in any order and as often as
it likes. Every step goes through the reader of the text that the steps before it left, so a literal
that is written and cannot be read back would be the end of the session:

> **all or nothing**: either every step of a session is met, a read answers what was declared last,
> and the file holds the first text with the last frequency declared in it (`text_of_answers`); or
> no step is met, each for the same reason, and nothing is written (`answers_of_read_eq_error`).

Which of the two it is depends on the first text alone. The runner beside the header is not asked.
-/

set_option autoImplicit false

namespace SafeClock

open SafeClock.Declaration

/-- A request that the header of a station answers. -/
def Request.AtHeader : Request → Prop
  | readFrequency => True
  | setFrequency hz => hz < frequencyLimit
  | clean => False
  | run _ => False

/-- The frequency that an exchange is to declare. -/
def Exchange.declared? (x : Exchange) : Option Nat :=
  match x.request with
  | .setFrequency hz => some hz
  | _ => none

/-- The frequency that was to be declared last. -/
def lastDeclared? (xs : List Exchange) : Option Nat :=
  (xs.filterMap Exchange.declared?).getLast?

theorem lastDeclared?_concat (xs : List Exchange) (x : Exchange) :
    lastDeclared? (xs ++ [x]) = x.declared?.or (lastDeclared? xs) := by
  cases h : x.declared? <;> simp [lastDeclared?, h]

theorem lt_of_lastDeclared? {xs : List Exchange} {hz : Nat} (hxs : ∀ x ∈ xs, x.request.AtHeader)
    (h : lastDeclared? xs = some hz) : hz < frequencyLimit := by
  obtain ⟨⟨r, o⟩, hx, hr⟩ := List.mem_filterMap.mp (List.mem_of_getLast? h)
  have hat := hxs _ hx
  cases r with
  | setFrequency k =>
    obtain rfl : k = hz := Option.some.inj hr
    exact hat
  | readFrequency => cases hr
  | clean => cases hr
  | run => cases hr

namespace Declaration.Site

variable {lead : List Char}

/-- The text with a last declaration, if there was one. -/
def after (s : Site lead) (last : Option Nat) : Site lead :=
  last.elim s s.declare

@[simp] theorem declare_after (s : Site lead) (last : Option Nat) (hz : Nat) :
    (s.after last).declare hz = s.declare hz := by
  cases last <;> rfl

theorem numeral_after {s : Site lead} {last : Option Nat} {prior : Nat}
    (h : Numeral s.form.literal prior) (hlast : ∀ hz, last = some hz → hz < frequencyLimit) :
    Numeral (s.after last).form.literal (last.getD prior) := by
  cases last with
  | none => exact h
  | some hz => exact numeral_decimal (hlast hz rfl)

end Declaration.Site

namespace Bench

variable {τ : Type} {runner : Runner τ} {h : Header} {cwd : Place} {tree' : FileTree}
  {u v : FileTree × τ} {s : Site h.lead.toList} {text : String} {prior hz : Nat}
  {xs ys zs : List Exchange} {x : Exchange}

/-! ## One step -/

theorem perform_setFrequency (runner : Runner τ) (hw : h.write cwd hz v.1 = .ok tree') :
    ((station h cwd runner).perform (.setFrequency hz) v).1.outcome = .ok () ∧
      ((station h cwd runner).perform (.setFrequency hz) v).2.1 = tree' := by
  simp [station, Runner.perform, Header.answerWrite, hw]

theorem outcome_readFrequency (runner : Runner τ) (htext : h.text cwd v.1 = .ok text)
    (hread : Declaration.read h.lead text = .ok prior) :
    ((station h cwd runner).perform .readFrequency v).1.outcome = .ok prior := by
  simp [station, Runner.perform, Header.answerRead, Header.read_eq_ok htext hread, Except.mapError]

/-- A header that cannot be read fails every step, and nothing changes. -/
theorem perform_of_read_eq_error {r : Request} {fault : Header.Fault} (hr : r.AtHeader)
    (hcr : '\r' ∉ h.lead.toList) (hlf : '\n' ∉ h.lead.toList)
    (hread : h.read cwd v.1 = .error fault) :
    (station h cwd runner).perform r v = (⟨.error (h.tooling fault), []⟩, v) := by
  cases r with
  | readFrequency =>
    simp [station, Runner.perform, Header.answerRead, hread, Except.mapError]
  | setFrequency hz =>
    simp [station, Runner.perform, Header.answerWrite, Header.write_eq_error hcr hlf hread]
  | clean => exact hr.elim
  | run => exact hr.elim

/-! ## A session that is met -/

/-- After a session the header holds the first text with the last declaration made in it, and
without a declaration nothing has changed. -/
theorem text_of_answers (hnum : Numeral s.form.literal prior)
    (htext : h.text cwd u.1 = .ok (String.ofList s.text)) (hxs : ∀ x ∈ xs, x.request.AtHeader)
    (ha : (station h cwd runner).Answers u xs v) :
    h.text cwd v.1 = .ok (String.ofList (s.after (lastDeclared? xs)).text) ∧
      (lastDeclared? xs = none → v.1 = u.1) := by
  -- From the end, since the last declaration is what counts.
  induction xs using List.reverseRecOn generalizing v with
  | nil =>
    obtain rfl := answers_nil_iff.mp ha
    exact ⟨htext, fun _ => rfl⟩
  | append_singleton xs x ih =>
    obtain ⟨w, hw, hlast⟩ := answers_append_iff.mp ha
    obtain ⟨-, hv⟩ := answers_cons_iff.mp hlast
    obtain rfl := answers_nil_iff.mp hv
    obtain ⟨hearlier, hx⟩ := List.forall_mem_append.mp hxs
    obtain ⟨hwtext, hwsame⟩ := ih hearlier hw
    have hat := hx x (List.mem_singleton_self x)
    rw [lastDeclared?_concat]
    obtain ⟨r, o⟩ := x
    cases r with
    | readFrequency => exact ⟨hwtext, hwsame⟩
    | setFrequency hz =>
      have hwnum := Site.numeral_after hnum fun _ => lt_of_lastDeclared? hearlier
      obtain ⟨tree', hwrite, htext'⟩ :=
        Header.exists_write hwtext ((s.after (lastDeclared? xs)).write_text hwnum hz)
      rw [Site.declare_after] at htext'
      rw [(perform_setFrequency runner hwrite).2]
      exact ⟨htext', nofun⟩
    | clean => exact hat.elim
    | run => exact hat.elim

/-- Every step of a session is met, and a read answers what was declared last. -/
theorem outcome_of_answers (hnum : Numeral s.form.literal prior)
    (htext : h.text cwd u.1 = .ok (String.ofList s.text))
    (hxs : ∀ y ∈ ys ++ x :: zs, y.request.AtHeader)
    (ha : (station h cwd runner).Answers u (ys ++ x :: zs) v) :
    x = ⟨.readFrequency, .ok ((lastDeclared? ys).getD prior)⟩ ∨ ∃ hz, x = ⟨.setFrequency hz, .ok ()⟩ := by
  obtain ⟨w, hw, hrest⟩ := answers_append_iff.mp ha
  obtain ⟨ho, -⟩ := answers_cons_iff.mp hrest
  obtain ⟨hys, hxzs⟩ := List.forall_mem_append.mp hxs
  have hat := hxzs x List.mem_cons_self
  obtain ⟨hwtext, -⟩ := text_of_answers hnum htext hys hw
  have hwnum := Site.numeral_after hnum fun _ => lt_of_lastDeclared? hys
  obtain ⟨r, o⟩ := x
  cases r with
  | readFrequency =>
    obtain rfl : .ok ((lastDeclared? ys).getD prior) = o :=
      (outcome_readFrequency runner hwtext (Site.read_text _ hwnum)).symm.trans ho
    exact .inl rfl
  | setFrequency hz =>
    obtain ⟨tree', hwrite, -⟩ := Header.exists_write hwtext (Site.write_text _ hwnum hz)
    obtain rfl : .ok () = o := (perform_setFrequency runner hwrite).1.symm.trans ho
    exact .inr ⟨hz, rfl⟩
  | clean => exact hat.elim
  | run => exact hat.elim

/-! ## A session that fails -/

/-- A header that cannot be read at first fails every step, each in the same way. -/
theorem answers_of_read_eq_error {fault : Header.Fault} (hcr : '\r' ∉ h.lead.toList)
    (hlf : '\n' ∉ h.lead.toList) (hread : h.read cwd u.1 = .error fault)
    (hxs : ∀ x ∈ xs, x.request.AtHeader) (ha : (station h cwd runner).Answers u xs v) :
    v = u ∧ ∀ x ∈ xs, x.outcome = .error (h.tooling fault) := by
  induction xs with
  | nil => exact ⟨(answers_nil_iff.mp ha).symm, nofun⟩
  | cons x xs ih =>
    obtain ⟨ho, hrest⟩ := answers_cons_iff.mp ha
    obtain ⟨hx, hxs⟩ := List.forall_mem_cons.mp hxs
    rw [perform_of_read_eq_error hx hcr hlf hread] at ho hrest
    obtain ⟨hv, hfail⟩ := ih hxs hrest
    exact ⟨hv, List.forall_mem_cons.mpr ⟨ho.symm, hfail⟩⟩

/-! ## All or nothing -/

/-- **A session on a header is met as a whole or not at all.** Either the first text declares a
frequency. Then every step is met, a read answers what was declared last or else the first
frequency, and the file holds what one write of the last frequency makes of the first text; if
nothing was declared, nothing changed. Or the first text cannot be read. Then nothing changes, and
every step fails with the tooling error of that one fault.

A blank literal is outside of what a session answers: it ends the program, so of it no more is said
than that nothing changes. -/
theorem station_all_or_nothing (runner : Runner τ) (cwd : Place) (u : FileTree × τ)
    (hcr : '\r' ∉ h.lead.toList) (hlf : '\n' ∉ h.lead.toList) :
    (∃ text prior, u.1.read cwd h.path = .ok text.toUTF8 ∧
      Declaration.read h.lead text = .ok prior ∧
      ∀ xs v, (∀ x ∈ xs, x.request.AtHeader) → (station h cwd runner).Answers u xs v →
        (∀ ys x zs, xs = ys ++ x :: zs →
          x = ⟨.readFrequency, .ok ((lastDeclared? ys).getD prior)⟩ ∨
            ∃ hz, x = ⟨.setFrequency hz, .ok ()⟩) ∧
        (lastDeclared? xs = none → v.1 = u.1) ∧
        ∀ hz, lastDeclared? xs = some hz → ∃ updated, Declaration.write h.lead text hz = .ok updated ∧
          v.1.read cwd h.path = .ok updated.toUTF8) ∨
    ∃ fault, h.read cwd u.1 = .error fault ∧
      ∀ xs v, (∀ x ∈ xs, x.request.AtHeader) → (station h cwd runner).Answers u xs v →
        v = u ∧ (fault ≠ .undeclared .blankLiteral →
          ∀ x ∈ xs, x.outcome = .error (h.tooling fault)) := by
  cases hread : h.read cwd u.1 with
  | error fault =>
    refine .inr ⟨fault, rfl, fun xs v hxs ha => ?_⟩
    obtain ⟨hv, hfail⟩ := answers_of_read_eq_error hcr hlf hread hxs ha
    exact ⟨hv, fun _ => hfail⟩
  | ok prior =>
    obtain ⟨text, htext, hdeclared⟩ := Header.text_of_read hread
    obtain ⟨s, rfl, hnum⟩ := exists_site_of_read hcr hlf hdeclared
    have bytes : ∀ {tree : FileTree} {t : String}, h.text cwd tree = .ok t →
        tree.read cwd h.path = .ok t.toUTF8 :=
      fun ht => FileTree.readText_eq_ok_iff.mp (Header.text_eq_ok_iff.mp ht)
    refine .inl ⟨_, prior, bytes htext, hdeclared, fun xs v hxs ha => ?_⟩
    obtain ⟨hv, hsame⟩ := text_of_answers hnum htext hxs ha
    refine ⟨?_, hsame, fun hz hlast => ?_⟩
    · rintro ys x zs rfl
      exact outcome_of_answers hnum htext hxs ha
    · rw [hlast] at hv
      exact ⟨_, s.write_text hnum hz, bytes hv⟩

/-- The literal has a suffix, and is read before and after a write. -/
theorem station_all_or_nothing_around_write :
    let h : Header := ⟨"h", "F"⟩
    let runner : Runner Unit := ⟨fun v => (⟨.ok (), []⟩, v), fun _ v => (⟨.ok "", []⟩, v)⟩
    let text := "a\r\nF = 12L; // Hz\r\n"
    let u : FileTree × Unit := (FileTree.empty.put ["h"] (.file text.toUTF8 false), ())
    ∃ v, (station h [] runner).Answers u
        [⟨.readFrequency, .ok 12⟩, ⟨.setFrequency 700, .ok ()⟩, ⟨.readFrequency, .ok 700⟩] v ∧
      v.1.read [] "h" = .ok "a\r\nF = 700; // Hz\r\n".toUTF8 := by
  intro h runner text u
  have hfind : u.1.find [] h.path = .ok (["h"], .file text.toUTF8 false) :=
    FileTree.find_put_name rfl (by decide) rfl
  have hbytes : u.1.read [] h.path = .ok text.toUTF8 :=
    FileTree.readText_eq_ok_iff.mp (FileTree.readText_of_find hfind)
  have htext := Header.text_eq_ok_iff.mpr (FileTree.readText_of_find hfind)
  have hread : Declaration.read h.lead text = .ok 12 := by decide
  have hwrite : Declaration.write h.lead text 700 = .ok "a\r\nF = 700; // Hz\r\n" := by decide
  let rs : List Request := [.readFrequency, .setFrequency 700, .readFrequency]
  have hrs : ∀ r ∈ rs, r.AtHeader := by simp [rs, Request.AtHeader, frequencyLimit]
  obtain ⟨xs, v, hxs, ha⟩ := (station h [] runner).exists_answers rs u
  have hcr : '\r' ∉ h.lead.toList := by decide
  have hlf : '\n' ∉ h.lead.toList := by decide
  rcases station_all_or_nothing runner [] u hcr hlf with
    ⟨text', prior, hbytes', hread', hall⟩ | ⟨fault, hfault, -⟩
  · obtain rfl : text = text' :=
      String.toByteArray_inj.mp (Except.ok.inj (hbytes.symm.trans hbytes'))
    obtain rfl : 12 = prior := Except.ok.inj (hread.symm.trans hread')
    obtain ⟨hmet, -, hlast⟩ := hall xs v (List.forall_mem_map.mp (hxs ▸ hrs)) ha
    obtain ⟨x, _, rfl, hx, hxs⟩ := List.map_eq_cons_iff.mp hxs
    obtain ⟨y, _, rfl, hy, hxs⟩ := List.map_eq_cons_iff.mp hxs
    obtain ⟨z, _, rfl, hz, hxs⟩ := List.map_eq_cons_iff.mp hxs
    obtain rfl := List.map_eq_nil_iff.mp hxs
    -- What each step asks leaves one of the two ways it may have been met.
    obtain rfl : x = ⟨.readFrequency, .ok 12⟩ := by
      rcases hmet [] x [y, z] rfl with heq | ⟨_, rfl⟩
      · exact heq
      · cases hx
    obtain rfl : y = ⟨.setFrequency 700, .ok ()⟩ := by
      rcases hmet [_] y [z] rfl with rfl | ⟨_, rfl⟩
      · cases hy
      · cases hy
        rfl
    obtain rfl : z = ⟨.readFrequency, .ok 700⟩ := by
      rcases hmet [_, _] z [] rfl with heq | ⟨_, rfl⟩
      · exact heq
      · cases hz
    obtain ⟨updated, hupdated, hfinal⟩ := hlast 700 rfl
    obtain rfl := Except.ok.inj (hupdated.symm.trans hwrite)
    exact ⟨v, ha, hfinal⟩
  · exact absurd (hfault.symm.trans (Header.read_eq_ok htext hread)) (by simp)

end Bench

end SafeClock
