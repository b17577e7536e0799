import SafeClock.Proofs.Bench.Station
import SafeClock.Proofs.Session.Protocol
import SafeClock.Proofs.Session.Restoration

/-!
# A search gives the header back

A search at a station declares its candidates in the text of a header, one after the other. The
runner works on the same files, and may fail whenever it is called. This file says what becomes of
the text:

> **one literal moves**: at every moment of a session the header holds the text it held at first
> with, at most, another number in the place of the literal of its first declaration, and after the
> session that number is the one that was read.

Nothing is asked of the runner but that it spares the header (`Runner.Spares`); then no write of a
session can fail, the last one included. The bytes are those of the first text exactly if its
literal was canonical.
-/

set_option autoImplicit false

namespace SafeClock

open SafeClock.Text SafeClock.Declaration

namespace Bench

variable {τ : Type} {runner : Runner τ} {h : Header} {cwd : Place} {tree tree' : FileTree}
  {u v : FileTree × τ} {s : Site h.lead.toList} {text : String} {prior hz : Nat}
  {xs ys : List Exchange}

/-- A runner that leaves the text of a header as it is, whatever else it does to the files. -/
structure Runner.Spares (runner : Runner τ) (h : Header) (cwd : Place) : Prop where
  clean : ∀ v text, h.text cwd v.1 = .ok text → h.text cwd (runner.clean v).2.1 = .ok text
  run : ∀ application v text, h.text cwd v.1 = .ok text →
    h.text cwd (runner.run application v).2.1 = .ok text

/-- The header holds a text with a declaration, as it was taken apart or with another frequency
declared. -/
def Shows (h : Header) (cwd : Place) (s : Site h.lead.toList) (tree : FileTree) : Prop :=
  ∃ literal, h.text cwd tree = .ok (String.ofList (s.front ++ literal ++ s.back)) ∧
    (literal = s.form.literal ∨ ∃ hz < frequencyLimit, literal = decimal hz)

/-- Whatever the header shows, every frequency can be declared in it, and the text that comes of it
does not depend on what it showed. -/
theorem Shows.exists_write (hs : Shows h cwd s tree) (hnum : Numeral s.form.literal prior)
    (hz : Nat) : ∃ tree', h.write cwd hz tree = .ok tree' ∧
      h.text cwd tree' = .ok (String.ofList (s.declare hz).text) := by
  obtain ⟨literal, htext, rfl | ⟨shown, hlt, rfl⟩⟩ := hs
  · exact Header.exists_write htext (s.write_text hnum hz)
  · exact Header.exists_write htext ((s.declare shown).write_text (numeral_decimal hlt) hz)

theorem shows_declare (htext : h.text cwd tree = .ok (String.ofList (s.declare hz).text))
    (hlt : hz < frequencyLimit) : Shows h cwd s tree :=
  ⟨decimal hz, htext, .inr ⟨hz, hlt, rfl⟩⟩

/-- What a header shows, it shows after every request. -/
theorem Shows.perform (hs : Shows h cwd s v.1) (hspares : runner.Spares h cwd)
    (hnum : Numeral s.form.literal prior) {r : Request}
    (hr : ∀ hz, r = .setFrequency hz → hz < frequencyLimit) :
    Shows h cwd s ((station h cwd runner).perform r v).2.1 := by
  cases r with
  | readFrequency => exact hs
  | setFrequency hz =>
    obtain ⟨tree', hwrite, htext⟩ := hs.exists_write hnum hz
    rw [(perform_setFrequency runner hwrite).2]
    exact shows_declare htext (hr hz rfl)
  | clean =>
    obtain ⟨literal, htext, hliteral⟩ := hs
    exact ⟨literal, hspares.clean v _ htext, hliteral⟩
  | run application =>
    obtain ⟨literal, htext, hliteral⟩ := hs
    exact ⟨literal, hspares.run application v _ htext, hliteral⟩

/-- Exchanges that declare nothing but frequencies. -/
def Bounded (xs : List Exchange) : Prop :=
  ∀ x ∈ xs, ∀ hz, x.request = .setFrequency hz → hz < frequencyLimit

theorem Shows.answers (hs : Shows h cwd s u.1) (hspares : runner.Spares h cwd)
    (hnum : Numeral s.form.literal prior) (hbound : Bounded xs)
    (ha : (station h cwd runner).Answers u xs v) : Shows h cwd s v.1 := by
  refine ha.keeps (I := fun w : FileTree × τ => Shows h cwd s w.1) hs fun x hx w hw => ?_
  exact hw.perform hspares hnum (hbound x hx)

theorem Shows.of_isPrefix (hs : Shows h cwd s u.1) (hspares : runner.Spares h cwd)
    (hnum : Numeral s.form.literal prior) (hbound : Bounded xs)
    (ha : (station h cwd runner).Answers u xs v) (hys : ys <+: xs) :
    ∃ w, (station h cwd runner).Answers u ys w ∧ Shows h cwd s w.1 := by
  obtain ⟨zs, rfl⟩ := hys
  obtain ⟨w, hw, -⟩ := answers_append_iff.mp ha
  exact ⟨w, hw, hs.answers hspares hnum (fun x hx => hbound x (List.mem_append_left _ hx)) hw⟩

/-- A last write is met, whatever was exchanged before it, and what the header holds after it
depends on nothing before it. -/
theorem Shows.last_write (hs : Shows h cwd s u.1) (hspares : runner.Spares h cwd)
    (hnum : Numeral s.form.literal prior) (hbound : Bounded xs)
    {restored : Except ToolingError Unit}
    (ha : (station h cwd runner).Answers u (xs ++ [⟨.setFrequency hz, restored⟩]) v) :
    restored = .ok () ∧ h.text cwd v.1 = .ok (String.ofList (s.declare hz).text) := by
  obtain ⟨w, hw, hlast⟩ := answers_append_iff.mp ha
  obtain ⟨hrestored, hv⟩ := answers_cons_iff.mp hlast
  obtain ⟨tree', hwrite, htext⟩ := (hs.answers hspares hnum hbound hw).exists_write hnum hz
  obtain ⟨hmet, htree⟩ := perform_setFrequency runner hwrite
  refine ⟨hrestored.symm.trans hmet, ?_⟩
  rw [← answers_nil_iff.mp hv, htree]
  exact htext

end Bench

namespace Search.Session

variable {τ : Type} {c : Session} {runner : Bench.Runner τ} {h : Header} {cwd : Place}
  {l : Ledger (FileTree × τ)} {text : String} {prior hz : Nat}

/-- What a loop declares lies in the band. -/
theorem Explains.declares_in_band {left : Nat} {ms : List Measurement} {ending : Ending}
    {cut : List Exchange} (hex : c.Explains (.initial c.parameters) left ms ending cut)
    (hp : c.parameters.Valid) (hall : ∀ m ∈ ms, m.traces.length = c.parameters.trials)
    {x : Exchange} (hx : x ∈ ms.flatMap c.exchanges ++ cut) (hr : x.request = .setFrequency hz) :
    c.parameters.band.contains hz = true := by
  have hinitial := State.enclosed_initial hp
  have hmem : (.setFrequency hz, x.call.2) ∈
      metCalls ((ms.map c.probeOf).flatMap fun q => c.block q.frequency) ++
        cut.map Exchange.call := by
    rw [← calls_flatMap_exchanges hall, ← List.map_append]
    exact List.mem_map.mpr ⟨x, hx, by rw [← hr]; rfl⟩
  -- It was declared for a probe, or for the candidate that a tool failed at.
  rcases mem_loop_calls hex.leftover hmem with ⟨q, hq, rfl⟩ | ⟨s, e, rfl, rfl⟩
  · exact hex.in_band hinitial q hq
  · have hs := hex.leg_of_interrupted.enclosed hinitial
    exact Band.contains_iff.mpr ⟨hs.low_le_current, hs.current_le_high⟩

/-- **A search gives the header back.** Its result is neither that the frequency could not be read
nor that it could not be declared again. After each of its exchanges the header holds the first
text with, at most, another number for the literal of the first declaration; after the last one it
holds what a write of the frequency that was read makes of the first text. That is the first text
itself exactly if its literal is the decimal, with no sign, no zero in front and no suffix. -/
theorem run_hands_back (hp : c.parameters.Valid) (hband : c.parameters.band.high < frequencyLimit)
    (hcr : '\r' ∉ h.lead.toList) (hlf : '\n' ∉ h.lead.toList) (hspares : runner.Spares h cwd)
    (htext : h.text cwd l.bench.1 = .ok text) (hread : Declaration.read h.lead text = .ok prior) :
    Restored (c.run (Bench.station h cwd runner) l).1 ∧
    ∃ (s : Site h.lead.toList) (back : String) (xs : List Exchange),
      text = String.ofList s.text ∧
      Dialogue (Bench.station h cwd runner) l xs (c.run (Bench.station h cwd runner) l).2 ∧
      (∀ ys, ys <+: xs → ∃ v, (Bench.station h cwd runner).Answers l.bench ys v ∧
        Bench.Shows h cwd s v.1) ∧
      Declaration.write h.lead text prior = .ok back ∧
      h.text cwd (c.run (Bench.station h cwd runner) l).2.bench.1 = .ok back ∧
      (back = text ↔ s.form.literal = decimal prior) ∧
      (s.form.literal = decimal prior ↔ IsCanonical s.form.literal) := by
  obtain ⟨s, rfl, hnum⟩ := exists_site_of_read hcr hlf hread
  have hshows : Bench.Shows h cwd s l.bench.1 := ⟨_, htext, .inl rfl⟩
  have hmet := Bench.outcome_readFrequency runner htext hread
  obtain ⟨xs, hd, hx⟩ := c.run_transcript (Bench.station h cwd runner) l
  generalize (c.run (Bench.station h cwd runner) l).1 = result at hx ⊢
  cases hx with
  | invalid hcheck =>
    exact absurd (hcheck.symm.trans ((Parameters.check_eq_ok_iff _).mpr hp)) (by simp)
  | setup _ =>
    have hfailed := (Bench.answers_cons_iff.mp hd.answers).1
    exact absurd (hmet.symm.trans hfailed) (by simp)
  | @searched found ms ending cut restored _ hall hex =>
    -- The search began, so all that is left is that its last write is met.
    have hfound := (Bench.answers_cons_iff.mp hd.answers).1
    obtain rfl : prior = found := Except.ok.inj (hmet.symm.trans hfound)
    have hloop : Bench.Bounded (ms.flatMap c.exchanges ++ cut) := by
      intro x hx hz hr
      have hin := Band.contains_iff.mp (hex.declares_in_band hp hall hx hr)
      exact Nat.lt_of_le_of_lt hin.2 hband
    have hfirst : Bench.Bounded (⟨.readFrequency, .ok prior⟩ :: (ms.flatMap c.exchanges ++ cut)) :=
      List.forall_mem_cons.mpr ⟨nofun, hloop⟩
    obtain ⟨rfl, hback⟩ := hshows.last_write hspares hnum hfirst hd.answers
    refine ⟨restored_outcome_iff.mpr rfl, s, _, _, rfl, hd, ?_, s.write_text hnum prior, hback, ?_,
      hnum.eq_decimal_iff⟩
    · intro ys hys
      have hlast : Bench.Bounded [⟨.setFrequency prior, .ok ()⟩] := by
        intro x hx hz hr
        obtain rfl := List.mem_singleton.mp hx
        obtain rfl : prior = hz := Request.setFrequency.inj hr
        exact hnum.lt_limit
      have hbound := List.forall_mem_append.mpr ⟨hfirst, hlast⟩
      exact hshows.of_isPrefix hspares hnum hbound hd.answers hys
    · rw [String.ofList_inj]
      exact s.text_declare_eq_iff prior

/-- The literal has a sign, a zero in front and a suffix, and the second run does not come to its
end. The search is aborted, and the header declares 120 Hz again, by the decimal. -/
theorem run_hands_back_after_failed_run :
    let cause : ToolingError := .processFailed "make run" "2" ""
    let c : Session := ⟨⟨⟨100, 200⟩, 50, 2⟩, "IRQ", .empty, "sort", 10⟩
    let h : Header := ⟨"h", "F"⟩
    let runner : Bench.Runner Nat :=
      { clean := fun v => (⟨.ok (), []⟩, v)
        run := fun _ v =>
          (⟨if v.2 = 1 then .error cause else .ok "IRQ a\nIRQ b", []⟩, (v.1, v.2 + 1)) }
    let text := "a\r\nF = +0120L; // Hz\r\nF = 7;"
    let l : Ledger (FileTree × Nat) :=
      .fresh (FileTree.empty.put ["h"] (.file text.toUTF8 false), 0)
    let l' := (c.run (Bench.station h [] runner) l).2
    Restored (c.run (Bench.station h [] runner) l).1 ∧
      h.text [] l'.bench.1 = .ok "a\r\nF = 120; // Hz\r\nF = 7;" := by
  intro cause c h runner text l l'
  have hp : c.parameters.Valid := by decide
  have hspares : runner.Spares h [] := ⟨fun _ _ htext => htext, fun _ _ _ htext => htext⟩
  have hfind : l.bench.1.find [] h.path = .ok (["h"], .file text.toUTF8 false) :=
    FileTree.find_put_name rfl (by decide) rfl
  have htext := Header.text_eq_ok_iff.mpr (FileTree.readText_of_find hfind)
  have hread : Declaration.read h.lead text = .ok 120 := by decide
  have hwrite : Declaration.write h.lead text 120 = .ok "a\r\nF = 120; // Hz\r\nF = 7;" := by decide
  obtain ⟨hrestored, _, back, _, -, -, -, hback, hfinal, -⟩ :=
    run_hands_back hp (by decide) (by decide) (by decide) hspares htext hread
  obtain rfl := Except.ok.inj (hback.symm.trans hwrite)
  exact ⟨hrestored, hfinal⟩

end Search.Session

end SafeClock
