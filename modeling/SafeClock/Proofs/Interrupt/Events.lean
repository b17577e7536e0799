import SafeClock.Interrupt.Trace
import SafeClock.Proofs.Text.Lines
import SafeClock.Proofs.Text.Words

/-!
# Which events a trace holds

A workload writes what it likes between the lines that record a dispatch, and a console may end its
lines in either way. None of that is in the events:

> **lines add up**: the events of two texts with a line feed between them are those of the one and
> those of the other (`events_append_newline`).

The lead-in must hold no part of a line's ending, else the line feed between two texts could make a
dispatch of what was none. What a line records is told by `IsLastWord`, without a look at the code
that cuts a line into words.
-/

set_option autoImplicit false

namespace SafeClock.Trace

open SafeClock.Text

/-! ## One line -/

section line

variable {lead line : List Char} {e : Event}

theorem eventOfLine?_eq_some_iff :
    eventOfLine? lead line = some e ↔ lead <+: line ∧ IsLastWord line e.toList := by
  rw [eventOfLine?, ← List.isPrefixOf_iff_prefix]
  split
  · next hlead =>
    rw [Option.map_eq_some_iff, ← getLast?_words_eq_some_iff]
    constructor
    · rintro ⟨w, hw, rfl⟩
      exact ⟨hlead, by rwa [String.toList_ofList]⟩
    · rintro ⟨-, hw⟩
      exact ⟨e.toList, hw, String.ofList_toList⟩
  · next hlead => exact ⟨nofun, fun h => absurd h.1 hlead⟩

theorem eventOfLine?_eq_none_iff :
    eventOfLine? lead line = none ↔ (lead <+: line → ∀ c ∈ line, isBlank c = true) := by
  rw [eventOfLine?, ← List.isPrefixOf_iff_prefix]
  split
  · next hlead =>
    rw [Option.map_eq_none_iff, getLast?_words_eq_none_iff]
    exact ⟨fun h _ => h, fun h => h hlead⟩
  · next hlead => exact ⟨fun _ h => absurd h hlead, fun _ => rfl⟩

/-- A line records the same event with its ending as without. -/
theorem ignoresEndings_eventOfLine? (hcr : '\r' ∉ lead) (hlf : '\n' ∉ lead) :
    IgnoresEndings (eventOfLine? lead) where
  nil := eventOfLine?_eq_none_iff.mpr fun _ _ hc => absurd hc List.not_mem_nil
  append := by
    intro xs ys hys
    have hlead : lead.isPrefixOf (xs ++ ys) = lead.isPrefixOf xs := by
      rw [Bool.eq_iff_iff, List.isPrefixOf_iff_prefix, List.isPrefixOf_iff_prefix]
      exact prefix_append_breaks_iff hcr hlf hys
    rw [eventOfLine?, eventOfLine?, hlead, words_append_blank fun c hc => (hys c hc).isBlank]

/-- Whether a line records an event: it starts with the lead-in and is not blank. -/
def records (lead line : List Char) : Bool := lead.isPrefixOf line && !line.all isBlank

theorem records_eq_isSome (lead line : List Char) :
    records lead line = (eventOfLine? lead line).isSome := by
  rw [Bool.eq_iff_iff, Option.isSome_iff_ne_none, ne_eq, eventOfLine?_eq_none_iff,
    Classical.not_imp, records, Bool.and_eq_true, List.isPrefixOf_iff_prefix, Bool.not_eq_true',
    ← Bool.not_eq_true, List.all_eq_true]

/-- **Each line that records an event records one**, in the order of the lines. -/
theorem forall₂_records (lead : List Char) (ls : List (List Char)) :
    List.Forall₂ (fun line (e : Event) => IsLastWord line e.toList) (ls.filter (records lead))
      (ls.filterMap (eventOfLine? lead)) := by
  induction ls with
  | nil => exact .nil
  | cons line ls ih =>
    have hrecords := records_eq_isSome lead line
    cases hevent : eventOfLine? lead line with
    | none =>
      rw [hevent] at hrecords
      rwa [List.filter_cons_of_neg (by simp [hrecords]), List.filterMap_cons_none hevent]
    | some e =>
      rw [hevent] at hrecords
      rw [List.filter_cons_of_pos hrecords, List.filterMap_cons_some hevent]
      exact .cons (eventOfLine?_eq_some_iff.mp hevent).2 ih

end line

/-! ## Whole traces -/

variable {lead t t' pre noise post : String}

theorem events_append_newline (hcr : '\r' ∉ lead.toList) (hlf : '\n' ∉ lead.toList)
    (a b : String) : events lead (a ++ "\n" ++ b) = events lead a ++ events lead b := by
  have htext : (a ++ "\n" ++ b).toList = a.toList ++ '\n' :: b.toList := by simp
  rw [events, htext, (ignoresEndings_eventOfLine? hcr hlf).lines_append]
  rfl

theorem events_eq_nil (h : ∀ line ∈ lines noise.toList, ¬lead.toList <+: line) :
    events lead noise = [] :=
  List.filterMap_eq_nil_iff.mpr fun line hline =>
    eventOfLine?_eq_none_iff.mpr fun hlead => absurd hlead (h line hline)

/-- A text behind which a line begins. -/
def ClosesLine (t : String) : Prop := t = "" ∨ ∃ a, t = a ++ "\n"

theorem events_append_of_closesLine (hcr : '\r' ∉ lead.toList) (hlf : '\n' ∉ lead.toList)
    (h : ClosesLine pre) (post : String) :
    events lead (pre ++ post) = events lead pre ++ events lead post := by
  rcases h with rfl | ⟨a, rfl⟩
  · rw [String.empty_append]
    rfl
  · have hend := events_append_newline hcr hlf a ""
    rw [String.append_empty] at hend
    rw [events_append_newline hcr hlf, hend, show events lead "" = [] from rfl, List.append_nil]

/-- Two texts that say the same: they hold the same events, and so they get the same count and the
same verdict under every table. -/
def Alike (lead t t' : String) : Prop :=
  events lead t = events lead t' ∧ ∀ table, check lead table t = check lead table t'

theorem alike_of_events (h : events lead t = events lead t') : Alike lead t t' := by
  refine ⟨h, fun table => ?_⟩
  rw [check, h]
  rfl

/-- The text with a carriage return put before each line feed. -/
def withReturns (t : String) : String := String.ofList (Text.withReturns t.toList)

theorem events_withReturns (hcr : '\r' ∉ lead.toList) (hlf : '\n' ∉ lead.toList) (t : String) :
    events lead (withReturns t) = events lead t := by
  rw [events, withReturns, String.toList_ofList,
    (ignoresEndings_eventOfLine? hcr hlf).lines_withReturns]
  rfl

/-- Whole lines that are no dispatches hold no events, wherever they stand. -/
theorem events_insert (hcr : '\r' ∉ lead.toList) (hlf : '\n' ∉ lead.toList)
    (hpre : ClosesLine pre) (hnoise : ClosesLine noise ∨ post = "")
    (hquiet : ∀ line ∈ lines noise.toList, ¬lead.toList <+: line) :
    events lead (pre ++ noise ++ post) = events lead (pre ++ post) := by
  have hrest : events lead (noise ++ post) = events lead post := by
    rcases hnoise with hclosed | rfl
    · rw [events_append_of_closesLine hcr hlf hclosed, events_eq_nil hquiet, List.nil_append]
    · rw [String.append_empty, events_eq_nil hquiet]
      rfl
  rw [String.append_assoc, events_append_of_closesLine hcr hlf hpre, hrest,
    events_append_of_closesLine hcr hlf hpre]

/-- **A trace is its dispatches.** Events add up over lines. Whole lines that do not start with the
lead-in may be put in or taken out anywhere, and lines may end in either way. Every event is a word,
the last of a line that starts with the lead-in, and each such line that is not blank gives one, in
the order of the lines. -/
theorem events_add_up (hcr : '\r' ∉ lead.toList) (hlf : '\n' ∉ lead.toList) :
    (∀ a b, events lead (a ++ "\n" ++ b) = events lead a ++ events lead b) ∧
    (∀ t, Alike lead (t ++ "\n") t) ∧
    (∀ pre noise post, ClosesLine pre → (ClosesLine noise ∨ post = "") →
      (∀ line ∈ lines noise.toList, ¬lead.toList <+: line) →
      Alike lead (pre ++ noise ++ post) (pre ++ post)) ∧
    (∀ t, Alike lead (withReturns t) t) ∧
    (∀ t, ∀ e ∈ events lead t, e ≠ "" ∧ (∀ c ∈ e.toList, isBlank c = false) ∧
      ∃ line ∈ lines t.toList, lead.toList <+: line ∧ IsLastWord line e.toList) ∧
    ∀ t, List.Forall₂ (fun line (e : Event) => IsLastWord line e.toList)
      ((lines t.toList).filter (records lead.toList)) (events lead t) := by
  refine ⟨events_append_newline hcr hlf, fun t => ?_, fun pre noise post hpre hnoise hquiet => ?_,
    fun t => ?_, fun t e he => ?_, fun t => forall₂_records _ _⟩
  · have hend := events_append_newline hcr hlf t ""
    rw [String.append_empty] at hend
    exact alike_of_events (hend.trans (List.append_nil _))
  · exact alike_of_events (events_insert hcr hlf hpre hnoise hquiet)
  · exact alike_of_events (events_withReturns hcr hlf t)
  · obtain ⟨line, hline, hevent⟩ := List.mem_filterMap.mp he
    obtain ⟨hlead, hlast⟩ := eventOfLine?_eq_some_iff.mp hevent
    obtain ⟨_, _, -, hne, hsolid, -⟩ := id hlast
    exact ⟨fun h => hne (by simp [h]), hsolid, line, hline, hlead, hlast⟩

/-- An indented line is no dispatch, and one with nothing behind the lead-in gives the lead-in as its
event. A return before every line feed, also before one that has a return already, and one more
indented line leave the events as they are. -/
theorem events_add_up_past_indented_line :
    let t := "boot\nirq 7 m\r\n irq 1 x\nirq \t\nirq 8 s\r"
    '\r' ∉ "irq".toList ∧ '\n' ∉ "irq".toList ∧ events "irq" t = ["m", "irq", "s"] ∧
      events "irq" (withReturns t) = ["m", "irq", "s"] ∧
      Alike "irq" ("boot\n" ++ " irq 9 y\r\n" ++ t) ("boot\n" ++ t) := by
  intro t
  have hcr : '\r' ∉ "irq".toList := by decide
  have hlf : '\n' ∉ "irq".toList := by decide
  obtain ⟨-, -, hinsert, hreturns, -⟩ := events_add_up hcr hlf
  have hevents : events "irq" t = ["m", "irq", "s"] := by decide
  have hquiet : ∀ line ∈ lines " irq 9 y\r\n".toList, ¬"irq".toList <+: line := by decide
  exact ⟨hcr, hlf, hevents, (hreturns t).1.trans hevents,
    hinsert _ _ t (.inr ⟨"boot", by decide⟩) (.inl (.inr ⟨" irq 9 y\r", by decide⟩)) hquiet⟩

end SafeClock.Trace
