/-
Options changed for a while.

A guard remembers the options that a file had before they were changed, and puts them back.
If the changed options cannot be written, the old ones are put back at once: who gets no
guard has changed nothing.
-/
import BuildLens.Host.World
import BuildLens.Session.Artifact

namespace BuildLens

/-- The options of a file before they were changed. -/
structure Guard where
  /-- The file. -/
  file : String
  /-- The target that the file is built for. -/
  target : Target
  /-- The options. -/
  saved : Options
  deriving DecidableEq, Repr

namespace Guard

variable {σ : Type}

/-- Puts the old options back, and tells whether that has worked. -/
def restore (h : Host σ) (w : World σ) (g : Guard) : Except HostError Unit × World σ :=
  w.ask h (.writeOptions g.file g.target g.saved)

/-- Puts the old options back, whether or not that works. -/
def drop (h : Host σ) (w : World σ) (g : Guard) : World σ :=
  (g.restore h w).2

/-- Changes the options of a file. -/
def acquire (h : Host σ) (w : World σ) (file : String) (target : Target)
    (change : Options → Options) : Except HostError Guard × World σ :=
  match w.ask h (.readOptions file target) with
  | (.error e, w) => (.error e, w)
  | (.ok saved, w) =>
    let g : Guard := ⟨file, target, saved⟩
    match w.ask h (.writeOptions file target (change saved)) with
    | (.error e, w) => (.error e, g.drop h w)
    | (.ok (), w) => (.ok g, w)

end Guard

end BuildLens
