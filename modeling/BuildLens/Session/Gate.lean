/-
The gate of sessions.

At most one session at a time works on a target.  The gate knows a target by its *key*, the
three names of the target joined by bars.
-/
import BuildLens.Session.Error

namespace BuildLens

/-- The targets that sessions work on. -/
structure Gate where
  /-- The keys of the targets that are held. -/
  held : List String := []
  deriving DecidableEq, Repr

/-- The key of a target. -/
def Target.gateKey (t : Target) : String :=
  t.project ++ "|" ++ t.configKey

/-- The right to work on a target; it is given back by its key. -/
structure Permit where
  /-- The key of the target. -/
  key : String
  deriving DecidableEq, Repr

namespace Gate

/-- The gate that holds no target. -/
def empty : Gate :=
  {}

/-- Whether a target is held. -/
def isHeld (g : Gate) (t : Target) : Bool :=
  g.held.contains t.gateKey

/-- The gate after a target has been claimed, unless it is held already. -/
def acquire (g : Gate) (t : Target) : Except SessionError (Gate × Permit) :=
  if g.isHeld t then .error (.busy t) else .ok (⟨t.gateKey :: g.held⟩, ⟨t.gateKey⟩)

/-- The gate after a permit has been given back. -/
def release (g : Gate) (p : Permit) : Gate :=
  ⟨g.held.filter (· != p.key)⟩

end Gate

end BuildLens
