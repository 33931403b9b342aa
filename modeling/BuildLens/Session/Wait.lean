/-
Waiting for the build of a project.

A session that waits takes events from the hub until one tells how the build of its project
ended.  If there is none, it gives up when the builds have been abandoned or when its time is
over.  An event that can be read always counts first, then the abandonment, then the time.

Everything that a session notices uses up some of the allowance of the turn.  When there is
none left, it notices no more events and no abandonment in this turn; it still notices that
its time is over, unless there was none left when it started to look.
-/
import BuildLens.Host.World
import BuildLens.Session.Config

namespace BuildLens

/-- A session's wait for the build of a project. -/
structure Wait where
  /-- The target that is built. -/
  target : Target
  /-- The events that are still to come. -/
  receiver : Receiver
  /-- The abandonments seen when the wait began. -/
  watcher : Watcher
  /-- When the wait ends at the latest. -/
  deadline : Nat
  deriving DecidableEq, Repr

namespace Wait

variable {σ : Type}

/-- Why a session fails after a build of its file that ended in a given way, if it does. -/
def failureOf (file : String) : Except SessionError Bool → Option SessionError
  | .ok true => none
  | .ok false => some (.compileFailed file)
  | .error e => some e

/-- Whether there is anything that the session has not noticed yet, the time apart. -/
def hasNews (h : Hub) (wait : Wait) : Bool :=
  0 < h.ahead wait.receiver || h.changed wait.watcher

/-- How a wait ends that no event has ended, and the world after that. -/
def giveUp (seconds : Nat) (wait : Wait) (w : World σ) : Option SessionError × World σ :=
  if 0 < w.allowance ∧ w.hub.changed wait.watcher then
    (some (.buildAbandoned wait.target), w.notice)
  else if wait.deadline ≤ w.clock then (some (.timedOut seconds wait.target), w.notice)
  else (none, w)

/-- Looks whether the wait is over: how it ended, if it has, what is left of it, and the world
after that. -/
def look (w : World σ) (seconds : Nat) (wait : Wait) :
    Option (Except SessionError Bool) × Wait × World σ :=
  if w.allowance = 0 then (none, wait, w)
  else
    let (outcome, receiver, allowance) :=
      w.hub.awaitOutcome wait.target.project w.allowance wait.receiver
    let wait := { wait with receiver }
    let w := { w with allowance }
    match outcome with
    | some success => (some (.ok success), wait, w)
    | none =>
      let (error, w) := wait.giveUp seconds w
      (error.map .error, wait, w)

/-- Starts the build of a project and the wait for it.  Events count from before the build
is started. -/
def start (h : Host σ) (config : SessionConfig) (target : Target) (w : World σ) :
    Except SessionError Wait × World σ :=
  let (hub, receiver) := w.hub.subscribe
  let watcher := hub.watch
  match World.ask h { w with hub } (.buildProject target) with
  | (.error e, w) => (.error (.ofHost e), { w with hub := w.hub.unsubscribe })
  | (.ok (), w) => (.ok ⟨target, receiver, watcher, w.clock + config.timeout⟩, w)

end Wait

end BuildLens
