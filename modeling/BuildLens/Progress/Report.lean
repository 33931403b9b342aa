/-
What a taskbar shows of a build.

An error is shown as long as the tracker remembers it.  Otherwise a build that goes on is
shown with its share of finished projects, or as busy if that is not known, and nothing is
shown of a build that has ended.
-/
import BuildLens.Progress.Tracker

namespace BuildLens

/-- The look of a taskbar indicator. -/
inductive TaskbarState where
  /-- Nothing is shown. -/
  | none
  /-- A build of unknown size goes on. -/
  | indeterminate
  /-- A build goes on. -/
  | normal
  /-- A project has failed. -/
  | error
  deriving DecidableEq, Repr

/-- The name of a look. -/
def TaskbarState.name : TaskbarState → String
  | .none => "none"
  | .indeterminate => "indeterminate"
  | .normal => "normal"
  | .error => "error"

/-- What a taskbar indicator shows. -/
structure ProgressReport where
  /-- Its look. -/
  state : TaskbarState := .none
  /-- How far it is filled. -/
  value : Share := ⟨0, 0⟩
  deriving DecidableEq, Repr

namespace ProgressReport

/-- How far an indicator is filled. -/
def shareOf (s : ProgressState) : Share :=
  match s.progress with
  | .fraction share => share
  | .indeterminate => ⟨0, 0⟩

/-- What is shown of a build. -/
def ofState (s : ProgressState) : ProgressReport :=
  if s.hasError then ⟨.error, shareOf s⟩
  else if !s.active then {}
  else
    match s.progress with
    | .indeterminate => ⟨.indeterminate, ⟨0, 0⟩⟩
    | .fraction share => ⟨.normal, share⟩

end ProgressReport

/-- What is shown of the current build. -/
def Tracker.report (t : Tracker) : ProgressReport :=
  ProgressReport.ofState t.state

end BuildLens
