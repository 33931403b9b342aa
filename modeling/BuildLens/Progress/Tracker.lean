/-
Progress of a build.

The tracker counts the finished projects of the current build and remembers whether one of
them failed.  Every start of a build begins a new count.  A build of the whole solution is
timed: its end tells how long it took.
-/
import BuildLens.Model.Event
import BuildLens.Time.Elapsed

namespace BuildLens

/-- A part of a whole.  The part may exceed the whole, and the whole may be nothing. -/
structure Share where
  /-- The part. -/
  part : Nat
  /-- The whole. -/
  whole : Nat
  deriving DecidableEq, Repr

/-- The quotient of part and whole as a double; that of nothing is zero. -/
def Share.toFloat (s : Share) : Float :=
  if s.whole = 0 then 0 else s.part.toUInt64.toFloat / s.whole.toUInt64.toFloat

/-- How much of a build is done. -/
inductive Progress where
  /-- The number of projects is not known. -/
  | indeterminate
  /-- A share of the projects is done. -/
  | fraction (s : Share)
  deriving DecidableEq, Repr

/-- What is known of the current build. -/
structure ProgressState where
  /-- The number of projects that the build comprises. -/
  totalProjects : Nat := 0
  /-- The number of finished projects. -/
  completedProjects : Nat := 0
  /-- Whether a project has failed. -/
  hasError : Bool := false
  /-- When a timed build has started. -/
  startedAt : Option Instant := none
  /-- Whether the build is going on. -/
  active : Bool := false
  deriving DecidableEq

/-- How much of the current build is done. -/
def ProgressState.progress (s : ProgressState) : Progress :=
  if s.totalProjects = 0 then .indeterminate
  else .fraction ⟨s.completedProjects, s.totalProjects⟩

/-- What is known of the current build and how long the last timed one took. -/
structure Tracker where
  /-- What is known of the current build. -/
  state : ProgressState := {}
  /-- How long the last timed build took. -/
  lastElapsed : Option Span := none
  deriving DecidableEq

namespace Tracker

/-- The tracker before any build. -/
def idle : Tracker :=
  {}

/-- A build starts. -/
def buildBegin (t : Tracker) (scope : BuildScope) (contexts : List PlannedProject)
    (time : Instant) : Tracker :=
  { t with
    state :=
      { totalProjects := contexts.countP PlannedProject.shouldBuild
        completedProjects := 0
        hasError := false
        startedAt := if scope = .solution then some time else none
        active := true } }

/-- A project is finished.  It counts unless all projects of a known number are. -/
def projectDone (t : Tracker) (success : Bool) : Tracker :=
  let s := t.state
  let counts := s.totalProjects = 0 ∨ s.completedProjects < s.totalProjects
  { t with
    state :=
      { s with
        completedProjects := if counts then s.completedProjects + 1 else s.completedProjects
        hasError := s.hasError || !success } }

/-- A build ends.  Its length is known if the whole solution was built and the start was
seen; a start is used up by that. -/
def buildDone (t : Tracker) (scope : BuildScope) (time : Instant) : Tracker × Option Span :=
  let stopped := { t.state with active := false }
  if scope = .solution then
    match stopped.startedAt with
    | none => ({ t with state := stopped }, none)
    | some start =>
      let elapsed := Span.clamped ⟨time.nanosSince start⟩
      (⟨{ stopped with startedAt := none }, some elapsed⟩, some elapsed)
  else ({ t with state := stopped }, none)

/-- The tracker after an event, and the length of the build if the event tells it. -/
def apply (t : Tracker) : BuildEvent → Tracker × Option Span
  | .buildBegin scope _ contexts time => (t.buildBegin scope contexts time, none)
  | .projectBegin .. => (t, none)
  | .projectDone _ _ _ _ success _ => (t.projectDone success, none)
  | .buildDone scope _ time => t.buildDone scope time

/-- The tracker after a sequence of events. -/
def run (t : Tracker) (events : List BuildEvent) : Tracker :=
  events.foldl (fun t e => (t.apply e).1) t

end Tracker

end BuildLens
