/-
Hosts, and the world that they act in.

A host answers a call in view of its own state and of the files.  While it does so it may
change both, and it may give signals: build events, and the news that builds are abandoned.

The world is everything that sessions share: the state of the host, the files, the hub, the
gate, the clock and the allowance of a turn.  All that is asked of the host goes through
`World.ask`, which keeps a log of it.
-/
import BuildLens.Files.Tree
import BuildLens.Host.Call
import BuildLens.Hub
import BuildLens.Session.Gate

namespace BuildLens

/-- What a host tells without being asked. -/
inductive Signal where
  /-- A step of a build. -/
  | event (e : BuildEvent)
  /-- The builds that go on will not be finished. -/
  | abandon
  deriving DecidableEq

/-- The hub after a signal. -/
def Hub.signal (h : Hub) : Signal → Hub
  | .event e => h.publish e
  | .abandon => h.abandon

/-- The hub after some signals. -/
def Hub.signalAll (h : Hub) (signals : List Signal) : Hub :=
  signals.foldl Hub.signal h

/-- The answer of a host, and what has changed. -/
structure Reply (σ α : Type) where
  /-- The answer. -/
  answer : α
  /-- The state of the host. -/
  host : σ
  /-- The files. -/
  files : FileTree
  /-- What the host has told meanwhile, in order. -/
  signals : List Signal := []

/-- A host with states in `σ`. -/
structure Host (σ : Type) where
  /-- How the host answers a call. -/
  reply : (c : HostCall) → σ → FileTree → Reply σ c.Answer

namespace Host

variable {σ : Type}

/-- A host that cannot compile single files and shows neither build output nor progress. -/
def withoutExtras (h : Host σ) : Host σ where
  reply
    | .compileFile file, s, t =>
      ⟨.refused (.unsupported ("single-file compile of " ++ file)), s, t, []⟩
    | .appendOutput _, s, t => ⟨(), s, t, []⟩
    | .showProgress _, s, t => ⟨(), s, t, []⟩
    | c, s, t => h.reply c s t

/-- A host whose signals reach nobody. -/
def silenced (h : Host σ) : Host σ where
  reply c s t := { h.reply c s t with signals := [] }

end Host

/-- How many things may be noticed in a turn.  After that everybody else has a turn first. -/
def turnAllowance : Nat :=
  128

/-- Everything that sessions share. -/
structure World (σ : Type) where
  /-- The state of the host. -/
  host : σ
  /-- The files. -/
  files : FileTree := {}
  /-- The hub of build events. -/
  hub : Hub := Hub.ofCapacity Hub.defaultCapacity
  /-- The targets that sessions work on. -/
  gate : Gate := {}
  /-- The time in milliseconds. -/
  clock : Nat := 0
  /-- How many more things may be noticed in the current turn. -/
  allowance : Nat := turnAllowance
  /-- What was asked of the host, and what it answered. -/
  log : List Exchange := []

namespace World

variable {σ : Type}

/-- The answer of a host to a call, and the world after it. -/
def ask (h : Host σ) (w : World σ) (c : HostCall) : c.Answer × World σ :=
  let r := h.reply c w.host w.files
  (r.answer,
    { w with
      host := r.host
      files := r.files
      hub := w.hub.signalAll r.signals
      log := w.log ++ [⟨c, r.answer⟩] })

/-- The world after a call whose answer does not matter. -/
def tell (h : Host σ) (w : World σ) (c : HostCall) : World σ :=
  (w.ask h c).2

/-- The world after a signal. -/
def signal (w : World σ) (s : Signal) : World σ :=
  { w with hub := w.hub.signal s }

/-- The world after a target is free again. -/
def release (w : World σ) (p : Permit) : World σ :=
  { w with gate := w.gate.release p }

/-- The world at a time. -/
def atTime (w : World σ) (clock : Nat) : World σ :=
  { w with clock }

/-- The world after one thing has been noticed. -/
def notice (w : World σ) : World σ :=
  { w with allowance := w.allowance - 1 }

/-- The world at the start of a turn. -/
def newTurn (w : World σ) : World σ :=
  { w with allowance := turnAllowance }

end World

end BuildLens
