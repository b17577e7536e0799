import SafeClock.Bench.Scripted

/-!
# What was asked of a bench, and what it answered

A journal holds the requests of a session with a flag for each, and no answers. A fact about the
traces a search has seen needs the answers as well, so this file pairs them: an `Exchange` is a
request with what came of it, and a `Dialogue` is a list of exchanges that took a ledger to another.

> **nothing else was asked**: a dialogue accounts for the whole change of the bench's state and for
> every call that the journal gained, in order.

A bench is a function of its state, so the exchanges between two ledgers leave nothing open: whatever
is true of every dialogue is true of every behaviour a platform and a runner can have.
-/

set_option autoImplicit false

namespace SafeClock

/-- A request, and what came of it. -/
structure Exchange where
  request : Request
  outcome : Except ToolingError request.Answer

/-- The request of an exchange and whether it was met: what a journal keeps. -/
def Exchange.call (x : Exchange) : Request × Bool :=
  (x.request, match x.outcome with
    | .ok _ => true
    | .error _ => false)

namespace Entry

/-- The call of an entry, if it is one. -/
def call? : Entry → Option (Request × Bool)
  | asked r met => some (r, met)
  | logged _ => none

end Entry

/-- The requests made, in order, with whether they were met. -/
def Ledger.calls {σ : Type} (l : Ledger σ) : List (Request × Bool) :=
  l.journal.toList.filterMap Entry.call?

variable {σ : Type} {b : Bench σ} {l l' l'' : Ledger σ} {xs ys : List Exchange}

@[simp] theorem Ledger.calls_log (level : Log.Level) (message : String) (l : Ledger σ) :
    (l.log level message).calls = l.calls := by
  simp [calls, log, Entry.call?]

/-- A bench that is asked what a list of exchanges asks answers what the list says. -/
inductive Bench.Answers (b : Bench σ) : σ → List Exchange → σ → Prop
  | nil {s : σ} : Answers b s [] s
  | cons {s u : σ} {r : Request} {xs : List Exchange} (h : Answers b (b.perform r s).2 xs u) :
      Answers b s (⟨r, (b.perform r s).1.outcome⟩ :: xs) u

theorem Bench.Answers.append {s u v : σ} (h : b.Answers s xs u) (h' : b.Answers u ys v) :
    b.Answers s (xs ++ ys) v := by
  induction h with
  | nil => exact h'
  | cons _ ih => exact .cons (ih h')

theorem Bench.answers_nil_iff {s u : σ} : b.Answers s [] u ↔ s = u := by
  constructor
  · rintro ⟨⟩
    rfl
  · rintro rfl
    exact .nil

theorem Bench.answers_cons_iff {x : Exchange} {s u : σ} :
    b.Answers s (x :: xs) u ↔ (b.perform x.request s).1.outcome = x.outcome ∧
      b.Answers (b.perform x.request s).2 xs u := by
  constructor
  · rintro (_ | h)
    exact ⟨rfl, h⟩
  · obtain ⟨r, o⟩ := x
    rintro ⟨ho, h⟩
    obtain rfl : (b.perform r s).1.outcome = o := ho
    exact .cons h

theorem Bench.answers_append_iff {s u : σ} :
    b.Answers s (xs ++ ys) u ↔ ∃ v, b.Answers s xs v ∧ b.Answers v ys u := by
  constructor
  · intro h
    induction xs generalizing s with
    | nil => exact ⟨s, .nil, h⟩
    | cons x xs ih =>
      obtain ⟨hx, h⟩ := answers_cons_iff.mp h
      obtain ⟨v, hv, hu⟩ := ih h
      exact ⟨v, answers_cons_iff.mpr ⟨hx, hv⟩, hu⟩
  · rintro ⟨v, hv, hu⟩
    exact hv.append hu

/-- A bench answers whatever it is asked. -/
theorem Bench.exists_answers (b : Bench σ) (rs : List Request) (s : σ) :
    ∃ xs u, xs.map Exchange.request = rs ∧ b.Answers s xs u := by
  induction rs generalizing s with
  | nil => exact ⟨[], s, rfl, .nil⟩
  | cons r rs ih =>
    obtain ⟨xs, u, rfl, hu⟩ := ih (b.perform r s).2
    exact ⟨_, u, rfl, .cons hu⟩

/-- What every request of a list keeps holds after the list. -/
theorem Bench.Answers.keeps {I : σ → Prop} {s u : σ} (h : b.Answers s xs u) (hs : I s)
    (hstep : ∀ x ∈ xs, ∀ v, I v → I (b.perform x.request v).2) : I u := by
  induction h with
  | nil => exact hs
  | cons _ ih =>
    obtain ⟨hx, hxs⟩ := List.forall_mem_cons.mp hstep
    exact ih (hx _ hs) hxs

/-- The exchanges that took a ledger to another. -/
structure Dialogue (b : Bench σ) (l : Ledger σ) (xs : List Exchange) (l' : Ledger σ) : Prop where
  answers : b.Answers l.bench xs l'.bench
  calls_eq : l'.calls = l.calls ++ xs.map Exchange.call

namespace Dialogue

theorem refl : Dialogue b l [] l := ⟨.nil, by simp⟩

theorem trans (h : Dialogue b l xs l') (h' : Dialogue b l' ys l'') :
    Dialogue b l (xs ++ ys) l'' :=
  ⟨h.answers.append h'.answers, by rw [h'.calls_eq, h.calls_eq, List.map_append, List.append_assoc]⟩

theorem of_log {level : Log.Level} {message : String}
    (h : Dialogue b (l.log level message) xs l') : Dialogue b l xs l' :=
  ⟨h.answers, by rw [h.calls_eq, Ledger.calls_log]⟩

theorem log (h : Dialogue b l xs l') (level : Log.Level) (message : String) :
    Dialogue b l xs (l'.log level message) :=
  ⟨h.answers, by rw [Ledger.calls_log, h.calls_eq]⟩

/-- To ask is to exchange once. -/
theorem ask (b : Bench σ) (r : Request) (l : Ledger σ) :
    Dialogue b l [⟨r, (b.ask r l).1⟩] (b.ask r l).2 := by
  refine ⟨.cons .nil, ?_⟩
  have quiet : ∀ rs : List Log.Record, (rs.map Entry.logged).filterMap Entry.call? = [] := by
    intro rs
    induction rs with
    | nil => rfl
    | cons x xs ih => simp [Entry.call?]
  simp only [Ledger.calls, Bench.ask, Array.toList_push, Array.toList_append, List.filterMap_append,
    quiet, List.append_nil, List.filterMap_cons, List.filterMap_nil, Entry.call?, Exchange.call,
    List.map_cons, List.map_nil]
  generalize (b.perform r l.bench).1.outcome = o
  cases o <;> rfl

theorem of_ask {r : Request} {o : Except ToolingError r.Answer} (h : b.ask r l = (o, l')) :
    Dialogue b l [⟨r, o⟩] l' := by
  have ha := ask b r l
  rwa [h] at ha

end Dialogue

/-! ## The declared frequency -/

/-- A reading of a bench's state as the frequency that is declared there: a read that is met answers
it, and a write that is met declares what was asked for. -/
structure Bench.Declares (b : Bench σ) (declared : σ → Nat) : Prop where
  read : ∀ s hz, (b.perform .readFrequency s).1.outcome = .ok hz → declared s = hz
  write : ∀ s hz, (b.perform (.setFrequency hz) s).1.outcome = .ok () →
    declared (b.perform (.setFrequency hz) s).2 = hz

/-- What a bench declares after a last write of what a first read answered, if that write was met. -/
theorem Dialogue.declared_eq {prior : Nat} {restored : Except ToolingError Unit}
    {declared : σ → Nat}
    (h : Dialogue b l (⟨.readFrequency, .ok prior⟩ :: xs ++ [⟨.setFrequency prior, restored⟩]) l')
    (hb : b.Declares declared) (hr : restored = .ok ()) :
    declared l'.bench = declared l.bench := by
  obtain ⟨hread, ha⟩ := Bench.answers_cons_iff.mp h.answers
  obtain ⟨u, -, hlast⟩ := Bench.answers_append_iff.mp ha
  obtain ⟨hwrite, hnil⟩ := Bench.answers_cons_iff.mp hlast
  rw [← Bench.answers_nil_iff.mp hnil, hb.read _ _ hread]
  exact hb.write _ _ (hwrite.trans hr)

/-- A scripted bench says what it has declared. -/
theorem Bench.Script.declares (s : Bench.Script) :
    s.bench.Declares Bench.Script.Progress.declared := by
  constructor
  · intro p hz h
    cases hf : s.readFault with
    | none => simpa [Script.bench, Script.perform, hf] using h
    | some e => simp [Script.bench, Script.perform, hf] at h
  · intro p hz h
    cases hf : s.writeFault? p hz with
    | none => simp [Script.bench, Script.perform, hf]
    | some e => simp [Script.bench, Script.perform, hf] at h

end SafeClock
