/-
Sessions that run side by side.

Sessions take turns.  In a turn first every session in order goes on as far as it can, then
everything happens that is due, and then the sessions are cancelled whose time has come.  In
a turn only so many things are noticed; what is left over is noticed in the next one.

Time passes only while no session has anything to notice: then the clock moves on to the next
moment at which something happens, at which a session stops to wait, or at which one is
cancelled.  So in every turn something happens, a session goes on, or a session notices an
event, and each of these brings the end of the schedule nearer.
-/
import BuildLens.Session.Run
import BuildLens.Workbench

namespace BuildLens

/-- A request for a session. -/
structure Request where
  /-- The name of the session. -/
  id : String
  /-- The kind of file that is to be shown. -/
  mode : Mode
  /-- After how many milliseconds the session is cancelled if it still waits then. -/
  cancelAfter : Option Nat := none
  deriving DecidableEq, Repr

/-- A session, and when it is cancelled. -/
structure Running where
  /-- The session. -/
  session : Session
  /-- When the session is cancelled if it waits. -/
  cancelAt : Option Nat
  deriving DecidableEq, Repr

namespace Running

/-- The session of a request that is made at a time. -/
def ofRequest (clock : Nat) (r : Request) : Running where
  session := { id := r.id, mode := r.mode }
  cancelAt := r.cancelAfter.map (clock + ·)

/-- Whether the session can go on before time passes. -/
def isEager (h : Hub) (r : Running) : Bool :=
  match r.session.phase with
  | .waiting _ wait => wait.hasNews h
  | .ended _ => false
  | _ => true

/-- The moments that a waiting session waits for. -/
def moments (r : Running) : List Nat :=
  match r.session.wait? with
  | none => []
  | some wait => wait.deadline :: r.cancelAt.toList

/-- The number of events that the session has not noticed yet. -/
def eventsAhead (h : Hub) (r : Running) : Nat :=
  match r.session.wait? with
  | none => 0
  | some wait => h.ahead wait.receiver

end Running

/-- Something that happens: how it changes the workbench, and when. -/
structure Happening (σ : Type) where
  /-- When it happens. -/
  time : Nat
  /-- What happens. -/
  change : Workbench σ → Workbench σ

/-- Sessions that run side by side. -/
structure Schedule (σ : Type) where
  /-- The workbench that they share. -/
  bench : Workbench σ
  /-- The sessions. -/
  running : List Running
  /-- What is going to happen, in the order in which it does. -/
  ahead : List (Happening σ)

namespace Schedule

variable {σ : Type}

/-- Whether all sessions have ended. -/
def isOver (s : Schedule σ) : Bool :=
  s.running.all fun r => r.session.stepsLeft == 0

/-! ## Turns -/

/-- Lets some sessions go on, one after the other. -/
def pollAll (b : Workbench σ) : List Running → List Running × Workbench σ
  | [] => ([], b)
  | r :: rs =>
    let (session, world) := r.session.poll b.host b.config b.world
    let (others, b) := pollAll { b with world } rs
    ({ r with session } :: others, b)

/-- Everything happens that is due and can be noticed: what is still to happen, and the
workbench after that. -/
def happen (b : Workbench σ) : List (Happening σ) → List (Happening σ) × Workbench σ
  | [] => ([], b)
  | h :: hs =>
    if h.time ≤ b.world.clock ∧ 0 < b.world.allowance then happen (h.change b.notice) hs
    else (h :: hs, b)

/-- Cancels a session that still waits although its time has come. -/
def cancel (b : Workbench σ) (r : Running) : Running × Workbench σ :=
  let isDue := r.session.wait?.isSome && r.cancelAt.any (· ≤ b.world.clock)
  if isDue ∧ 0 < b.world.allowance then
    let (session, world) := r.session.cancel b.host b.config b.world.notice
    ({ r with session }, { b with world })
  else (r, b)

/-- Cancels the sessions that still wait although their time has come. -/
def cancelAll (b : Workbench σ) : List Running → List Running × Workbench σ
  | [] => ([], b)
  | r :: rs =>
    let (r, b) := cancel b r
    let (others, b) := cancelAll b rs
    (r :: others, b)

/-- The schedule after all sessions have gone on as far as they can. -/
def polled (s : Schedule σ) : Schedule σ :=
  let (running, bench) := pollAll { s.bench with world := s.bench.world.newTurn } s.running
  { s with running, bench }

/-- The schedule after a turn.  Once all sessions have ended nothing happens any more. -/
def turn (s : Schedule σ) : Schedule σ :=
  let s := s.polled
  if s.isOver then s
  else
    let (ahead, bench) := happen s.bench s.ahead
    let (running, bench) := cancelAll bench s.running
    ⟨bench, running, ahead⟩

/-! ## Time -/

/-- The moments at which something is due. -/
def moments (s : Schedule σ) : List Nat :=
  s.ahead.map Happening.time ++ s.running.flatMap Running.moments

/-- The schedule at the next moment, if no session can go on before time passes. -/
def passTime (s : Schedule σ) : Schedule σ :=
  if s.running.any (Running.isEager s.bench.world.hub) then s
  else
    match s.moments.min? with
    | none => s
    | some moment =>
      let world := s.bench.world.atTime (max s.bench.world.clock moment)
      { s with bench := { s.bench with world } }

/-- How far a schedule is from its end: what is still to happen, how many more steps sessions
can take, and how many events they have not noticed.  The first number that differs
counts. -/
def distance (s : Schedule σ) : Nat × Nat × Nat :=
  (s.ahead.length, (s.running.map fun r => r.session.stepsLeft).foldl (· + ·) 0,
    (s.running.map (Running.eventsAhead s.bench.world.hub)).foldl (· + ·) 0)

/-- Whether a distance is smaller than another one. -/
def isNearer (a b : Nat × Nat × Nat) : Bool :=
  a.1 < b.1 || a.1 == b.1 && (a.2.1 < b.2.1 || a.2.1 == b.2.1 && a.2.2 < b.2.2)

theorem lex_of_isNearer {a b : Nat × Nat × Nat} (h : isNearer a b = true) :
    Prod.Lex (· < ·) (Prod.Lex (· < ·) (· < ·)) a b := by
  obtain ⟨a₁, a₂, a₃⟩ := a
  obtain ⟨b₁, b₂, b₃⟩ := b
  simp only [isNearer, Bool.or_eq_true, Bool.and_eq_true, decide_eq_true_eq,
    beq_iff_eq] at h
  rcases h with h | ⟨rfl, h | ⟨rfl, h⟩⟩
  · exact .left _ _ h
  · exact .right _ (.left _ _ h)
  · exact .right _ (.right _ h)

/-- Turns follow one another until all sessions have ended.  A turn that did not bring the end
nearer would be the last one. -/
def complete (s : Schedule σ) : Schedule σ :=
  if s.isOver then s
  else
    let next := s.passTime.turn
    if _h : isNearer next.distance s.distance then complete next else next
termination_by s.distance
decreasing_by exact lex_of_isNearer _h

end Schedule

/-- Runs some sessions to their end, while things happen at given times after now. -/
def Workbench.run {σ : Type} (b : Workbench σ) (requests : List Request)
    (hs : List (Happening σ)) : List Session × Workbench σ :=
  let clock := b.world.clock
  let ahead := (hs.mergeSort (·.time ≤ ·.time)).map fun h => { h with time := clock + h.time }
  let s := Schedule.complete ⟨b, requests.map (Running.ofRequest clock), ahead⟩
  (s.running.map Running.session, s.bench)

end BuildLens
