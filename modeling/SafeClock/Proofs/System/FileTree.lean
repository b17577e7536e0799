import SafeClock.Proofs.Text.Words
import SafeClock.System.FileTree
import SafeClock.System.Path

/-!
# What is written to a file can be read from it

A path is followed through a tree place by place, and all that counts on the way is which places
are directories. So a file that is put over a file turns no path aside:

> **write, then read**: a file that could be read can be written, is found by the same path after
> that, and holds the text that was written, and nothing else has changed (`readText_write`).

A sink reads as the empty text and keeps nothing of what is written to it, which is why the text
that was read must not be empty. Where no file was before, a name is enough of a path:

> **put, then find**: what is put into a directory is found there by its name (`find_put_name`).
-/

set_option autoImplicit false

namespace SafeClock.FileTree

open Text (pieces pieces_of_forall_neg)

variable {t t' : FileTree} {cwd place other : Place} {path text name : String}
  {old new : ByteArray} {x y : Bool} {node : Node}

theorem ne_nil_of_at_file (h : t.at? place = some (.file old x)) : place ≠ [] := by
  rintro rfl
  exact absurd h (by simp [at?])

/-- A file put over a file turns no path aside. -/
theorem walk_put_file (h : t.at? place = some (.file old x)) (here : Place) (names : List String) :
    (t.put place (.file new y)).walk here names = t.walk here names := by
  induction names generalizing here with
  | nil => simp only [walk]
  | cons name names ih =>
    by_cases hplace : here = place
    · -- No name leads on from a file, whichever of the two it is.
      rw [walk, walk, hplace, at_put_self t _ (ne_nil_of_at_file h), h]
    · rw [walk, walk, at_put_of_ne t _ hplace]
      simp only [ih]

theorem resolve_put_file (h : t.at? place = some (.file old x)) :
    (t.put place (.file new y)).resolve cwd path = t.resolve cwd path := by
  simp only [resolve, walk_put_file h]

theorem find_eq_ok_iff :
    t.find cwd path = .ok (place, node) ↔
      t.resolve cwd path = .ok place ∧ t.at? place = some node := by
  rw [find]
  cases hr : t.resolve cwd path with
  | error e => simp [bind, Except.bind]
  | ok p =>
    simp only [bind, Except.bind, Except.ok.injEq]
    cases hn : t.at? p with
    | none =>
      constructor
      · rintro ⟨⟩
      · rintro ⟨rfl, hnode⟩
        exact absurd (hn.symm.trans hnode) (by simp)
    | some n =>
      simp only [Except.ok.injEq, Prod.mk.injEq]
      constructor
      · rintro ⟨rfl, rfl⟩
        exact ⟨rfl, hn⟩
      · rintro ⟨rfl, hnode⟩
        exact ⟨rfl, Option.some.inj (hn.symm.trans hnode)⟩

/-! ## Names -/

/-- A text that can be the name of a file. -/
def IsName (name : String) : Prop :=
  name ∉ ["", ".", ".."] ∧ '/' ∉ name.toList ∧ '\x00' ∉ name.toList ∧
    name.utf8ByteSize ≤ nameLimit

instance (name : String) : Decidable (IsName name) :=
  inferInstanceAs (Decidable (_ ∧ _))

theorem IsName.names_eq (h : IsName name) : names name = [name] := by
  obtain ⟨hne, hslash, -⟩ := h
  have hends : name.endsWith "/" = false := by
    rw [← String.endsWith_toSlice, String.Slice.endsWith_string_eq_false_iff,
      String.copy_toSlice]
    exact fun hend => hslash (hend.subset (by simp))
  have hpieces : pieces (· == '/') name.toList = [name.toList] :=
    pieces_of_forall_neg fun c hc => beq_false_of_ne fun heq => hslash (heq ▸ hc)
  have hchars : name.toList ≠ [] := fun heq => hne (by simp [String.toList_eq_nil_iff.mp heq])
  simp [names, hends, hpieces, hchars]

/-- **What is put into a directory is found there by its name.** -/
theorem find_put_name (hcwd : t.at? cwd = some .directory) (hname : IsName name)
    (hplace : place = cwd ++ [name]) : (t.put place node).find cwd name = .ok (place, node) := by
  have hne : place ≠ [] := by simp [hplace]
  refine find_eq_ok_iff.mpr ⟨?_, at_put_self t node hne⟩
  obtain ⟨hspecial, hslash, hnul, hsize⟩ := id hname
  simp only [List.mem_cons, List.not_mem_nil, or_false, not_or] at hspecial
  obtain ⟨hempty, hdot, hdots⟩ := hspecial
  have hstarts : name.startsWith "/" = false := by
    rw [String.startsWith_string_eq_false_iff]
    exact fun hstart => hslash (hstart.subset (by simp))
  -- The only directory on the way is the one that the way starts from.
  have hat : (t.put place node).at? cwd = some .directory := by
    rw [at_put_of_ne t node (by simp [hplace]), hcwd]
  have hwalk : (t.put place node).walk cwd [name] = .ok place := by
    rw [walk, hat]
    simp [walk, hdot, hdots, Nat.not_lt.mpr hsize, hplace]
  simp [resolve, hempty, hnul, hstarts, hname.names_eq, hwalk]

/-! ## Reading -/

theorem isFile_empty : empty.isFile cwd path = false := by
  unfold isFile find
  cases empty.resolve cwd path with
  | error e => rfl
  | ok place => cases place <;> rfl

theorem readText_eq_ok_iff :
    t.readText cwd path = .ok text ↔ t.read cwd path = .ok text.toUTF8 := by
  rw [readText]
  cases t.read cwd path with
  | error e => simp
  | ok content =>
    simp only [Except.ok.injEq, ← fromUTF8?_eq_some_iff]
    cases String.fromUTF8? content <;> simp

/-- A text that was read is the content of a file, unless it is the empty text of a sink. -/
theorem find_of_readText (h : t.readText cwd path = .ok text) (hne : text ≠ "") :
    ∃ place x, t.find cwd path = .ok (place, .file text.toUTF8 x) := by
  rw [readText_eq_ok_iff, read] at h
  split at h
  next place content x hfind =>
    obtain rfl := Except.ok.inj h
    exact ⟨place, x, hfind⟩
  next => cases h
  next =>
    have hempty : text.toByteArray = "".toByteArray := (Except.ok.inj h).symm
    exact absurd (String.toByteArray_inj.mp hempty) hne
  next => cases h

theorem readText_of_find (h : t.find cwd path = .ok (place, .file text.toUTF8 x)) :
    t.readText cwd path = .ok text := by
  rw [readText_eq_ok_iff, read, h]

/-! ## Writing -/

theorem write_of_find (h : t.find cwd path = .ok (place, .file old x)) :
    t.write cwd path new = .ok (t.put place (.file new x)) := by
  obtain ⟨hresolve, hat⟩ := find_eq_ok_iff.mp h
  rw [write, writable, hresolve]
  simp only [hat, fill]

/-- **What is written can be read.** -/
theorem readText_write (h : t.readText cwd path = .ok text) (hne : text ≠ "") (new : String) :
    ∃ t' place, t.write cwd path new.toUTF8 = .ok t' ∧ t'.readText cwd path = .ok new ∧
      ∀ other ≠ place, t'.at? other = t.at? other := by
  obtain ⟨place, x, hfind⟩ := find_of_readText h hne
  obtain ⟨hresolve, hat⟩ := find_eq_ok_iff.mp hfind
  have hfind' : (t.put place (.file new.toUTF8 x)).find cwd path =
      .ok (place, .file new.toUTF8 x) :=
    find_eq_ok_iff.mpr ⟨(resolve_put_file hat).trans hresolve,
      at_put_self t _ (ne_nil_of_at_file hat)⟩
  exact ⟨_, place, write_of_find hfind, readText_of_find hfind',
    fun other hother => at_put_of_ne t _ hother⟩

end SafeClock.FileTree
