/-
The monitor of builds.

The monitor follows the events of a host one by one.  It keeps the progress of the build,
tells the user about it, and hands every event on to the hub.  When a build has ended it
looks for new remarks in what the builds have printed.
-/
import BuildLens.Host.World
import BuildLens.Remark.TaskList

namespace BuildLens

/-- A monitor. -/
structure Monitor where
  /-- The progress of the current build. -/
  tracker : Tracker := {}
  /-- The remarks that are looked for. -/
  family : RemarkFamily := .loopNotVectorized
  /-- The remarks found so far. -/
  tasks : TaskList := {}

namespace Monitor

variable {σ : Type}

/-- What is shown of the current build. -/
def report (m : Monitor) : ProgressReport :=
  m.tracker.report

/-- The world after the user has been given some diagnostics. -/
def reportAll (h : Host σ) (ds : List Diagnostic) (w : World σ) : World σ :=
  ds.foldl (fun w d => w.tell h (.addDiagnostic d)) w

/-- Looks for remarks in what the builds have printed: the new ones, and the monitor that
knows them.  If the host does not tell what was printed there are none. -/
def collect (h : Host σ) (m : Monitor) (w : World σ) :
    List Diagnostic × Monitor × World σ :=
  match w.ask h .buildOutput with
  | (.error _, w) => ([], m, w)
  | (.ok output, w) =>
    let (tasks, fresh) := m.tasks.addAll (Remark.extract m.family output.toList)
    (fresh, { m with tasks }, reportAll h fresh w)

/-- What the user is told when the build of a project starts. -/
def startText (project config platform : String) : String :=
  "Building " ++ project ++ " (" ++ config ++ "|" ++ platform ++ ")"

/-- What the user is told when the build of a project has ended. -/
def endText (project : String) (success : Bool) : String :=
  project ++ " finished: " ++ if success then "succeeded" else "failed"

/-- What the user is told of the length of a build. -/
def lengthText (elapsed : Span) : String :=
  "Total build time: " ++ elapsed.format

/-- Tells the user how long a build took, if that is known. -/
def tellLength (h : Host σ) (elapsed : Option Span) (w : World σ) : World σ :=
  match elapsed with
  | none => w
  | some elapsed =>
    let w := w.tell h (.appendOutput ("\n" ++ lengthText elapsed))
    w.tell h (.showStatus (lengthText elapsed))

/-- Tells the user about an event, and looks for remarks at the end of a build. -/
def announce (h : Host σ) (m : Monitor) (e : BuildEvent) (elapsed : Option Span)
    (w : World σ) : Monitor × World σ :=
  match e with
  | .buildBegin .. => (m, w)
  | .projectBegin project config platform _ _ =>
    (m, w.tell h (.showStatus (startText project config platform)))
  | .projectDone project _ _ _ success _ =>
    (m, w.tell h (.showStatus (endText project success)))
  | .buildDone .. => (m.collect h (tellLength h elapsed w)).2

/-- Follows an event. -/
def dispatch (h : Host σ) (m : Monitor) (e : BuildEvent) (w : World σ) :
    Monitor × World σ :=
  let (tracker, elapsed) := m.tracker.apply e
  let (m, w) := announce h { m with tracker } e elapsed w
  (m, (w.tell h (.showProgress m.report)).signal (.event e))

/-- Follows a sequence of events. -/
def dispatchAll (h : Host σ) (m : Monitor) (es : List BuildEvent) (w : World σ) :
    Monitor × World σ :=
  es.foldl (fun (m, w) e => m.dispatch h e w) (m, w)

end Monitor

end BuildLens
