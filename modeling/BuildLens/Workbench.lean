/-
The workbench: a host with its monitor and the settings of its sessions.
-/
import BuildLens.Monitor
import BuildLens.Session.Config

namespace BuildLens

/-- A host with its monitor and its settings. -/
structure Workbench (σ : Type) where
  /-- The host. -/
  host : Host σ
  /-- The settings of sessions. -/
  config : SessionConfig
  /-- What the sessions share. -/
  world : World σ
  /-- The monitor. -/
  monitor : Monitor := {}

namespace Workbench

variable {σ : Type}

/-! ## Builds -/

/-- Follows an event of the host. -/
def dispatch (b : Workbench σ) (e : BuildEvent) : Workbench σ :=
  let (monitor, world) := b.monitor.dispatch b.host e b.world
  { b with monitor, world }

/-- Tells the sessions that wait that the builds will not be finished. -/
def abandonBuilds (b : Workbench σ) : Workbench σ :=
  { b with world := b.world.signal .abandon }

/-- Looks for remarks in what the builds have printed: the new ones. -/
def rescan (b : Workbench σ) : List Diagnostic × Workbench σ :=
  let (fresh, monitor, world) := b.monitor.collect b.host b.world
  (fresh, { b with monitor, world })

/-- The remarks found so far. -/
def diagnostics (b : Workbench σ) : List Diagnostic :=
  b.monitor.tasks.items

/-- What is known of the current build. -/
def progress (b : Workbench σ) : ProgressState :=
  b.monitor.tracker.state

/-- The workbench after one thing has been noticed. -/
def notice (b : Workbench σ) : Workbench σ :=
  { b with world := b.world.notice }

end Workbench

end BuildLens
