import SafeClock.Header

/-!
# Benches made of a header and a runner

A `Runner` cleans a workspace and runs workloads. It works on a tree of files and on whatever else
it has. A station puts a runner beside a header in the same tree: the header answers what is asked
about the frequency, the runner all else.

> **no crossing**: the header leaves alone what the runner has beside the files
> (`snd_perform_station_of_frequency`).
-/

set_option autoImplicit false

namespace SafeClock.Bench

/-- Something that cleans a workspace and runs workloads. -/
structure Runner (τ : Type) where
  clean : FileTree × τ → Reply Unit × (FileTree × τ)
  run : (application : String) → FileTree × τ → Reply String × (FileTree × τ)

/-- Answers one request at a station. -/
def Runner.perform {τ : Type} (runner : Runner τ) (h : Header) (cwd : Place) :
    (r : Request) → FileTree × τ → Reply r.Answer × (FileTree × τ)
  | .readFrequency, s =>
    let (reply, tree) := h.answerRead cwd s.1
    (reply, (tree, s.2))
  | .setFrequency hz, s =>
    let (reply, tree) := h.answerWrite cwd hz s.1
    (reply, (tree, s.2))
  | .clean, s => runner.clean s
  | .run application, s => runner.run application s

/-- The bench of a header, seen from a directory, and a runner. -/
def station {τ : Type} (h : Header) (cwd : Place) (runner : Runner τ) : Bench (FileTree × τ) :=
  ⟨runner.perform h cwd⟩

theorem snd_perform_station_of_frequency {τ : Type} (h : Header) (cwd : Place) (runner : Runner τ)
    (s : FileTree × τ) :
    ((station h cwd runner).perform .readFrequency s).2.2 = s.2 ∧
      ∀ hz, ((station h cwd runner).perform (.setFrequency hz) s).2.2 = s.2 :=
  ⟨rfl, fun _ => rfl⟩

end SafeClock.Bench
