/-
The hub of build events.

The hub hands every published event to every receiver, in the order of publication.  It
keeps the last `capacity` events: a receiver that has fallen further behind is told once
how many events it has lost, and goes on with the oldest one that is kept.  Apart from the
events the hub counts how often the host has abandoned its builds, and a watcher notices
when that number has changed.
-/
import BuildLens.Model.Event

namespace BuildLens

/-- A hub of build events. -/
structure Hub where
  /-- How many events are kept. -/
  capacity : Nat
  /-- The published events, last one first. -/
  published : List BuildEvent := []
  /-- The number of receivers. -/
  receivers : Nat := 0
  /-- How often builds have been abandoned. -/
  abandonments : Nat := 0
  deriving DecidableEq

/-- A receiver of events: the number of events that it is done with. -/
structure Receiver where
  /-- The position of the next event. -/
  next : Nat
  deriving DecidableEq, Repr

/-- A watcher of abandonments: the number that it has seen last. -/
structure Watcher where
  /-- The number of abandonments seen. -/
  seen : Nat
  deriving DecidableEq, Repr

/-- What a receiver gets when it asks for the next event. -/
inductive Received where
  /-- The next event. -/
  | event (e : BuildEvent)
  /-- Some events are lost. -/
  | lagged (lost : Nat)
  /-- There is no event yet. -/
  | empty
  deriving DecidableEq

namespace Hub

/-- How many events a hub keeps unless told otherwise. -/
def defaultCapacity : Nat :=
  256

/-- A hub without events. -/
def ofCapacity (capacity : Nat) : Hub :=
  { capacity }

/-- A hub can be made if it is to keep at least one event. -/
def ofCapacity? (capacity : Nat) : Option Hub :=
  if capacity = 0 then none else some (ofCapacity capacity)

/-- The number of published events. -/
def count (h : Hub) : Nat :=
  h.published.length

/-- The hub and a new receiver, which gets all events published from now on. -/
def subscribe (h : Hub) : Hub × Receiver :=
  ({ h with receivers := h.receivers + 1 }, ⟨h.count⟩)

/-- The hub after a receiver has left. -/
def unsubscribe (h : Hub) : Hub :=
  { h with receivers := h.receivers - 1 }

/-- The hub after an event. -/
def publish (h : Hub) (e : BuildEvent) : Hub :=
  { h with published := e :: h.published }

/-- The hub after builds have been abandoned. -/
def abandon (h : Hub) : Hub :=
  { h with abandonments := h.abandonments + 1 }

/-- A new watcher, which has seen all abandonments so far. -/
def watch (h : Hub) : Watcher :=
  ⟨h.abandonments⟩

/-- Whether builds have been abandoned since a watcher looked. -/
def changed (h : Hub) (w : Watcher) : Bool :=
  w.seen != h.abandonments

/-- The position of the oldest event that is kept. -/
def oldest (h : Hub) : Nat :=
  h.count - h.capacity

/-- The event at a position, counted from the first event on. -/
def event? (h : Hub) (position : Nat) : Option BuildEvent :=
  if position < h.count then h.published[h.count - 1 - position]? else none

/-- What a receiver gets, and the receiver after that. -/
def receive (h : Hub) (r : Receiver) : Received × Receiver :=
  if r.next < h.oldest then (.lagged (h.oldest - r.next), ⟨h.oldest⟩)
  else
    match h.event? r.next with
    | none => (.empty, r)
    | some e => (.event e, ⟨r.next + 1⟩)

/-- The events that a receiver can still get. -/
def readable (h : Hub) (r : Receiver) : List BuildEvent :=
  (h.published.take (h.count - max r.next h.oldest)).reverse

/-- The number of events published since a receiver got one, whether they are kept or not. -/
def ahead (h : Hub) (r : Receiver) : Nat :=
  h.count - r.next

/-- How the build of a project ended, as far as a receiver can tell: it goes on until an event
tells, until there is nothing to get, or until it has got something `allowance` times.  The
last result is what is left of the allowance. -/
def awaitOutcome (h : Hub) (project : String) :
    Nat → Receiver → Option Bool × Receiver × Nat
  | 0, r => (none, r, 0)
  | allowance + 1, r =>
    match h.receive r with
    | (.empty, r) => (none, r, allowance + 1)
    | (.lagged _, r) => h.awaitOutcome project allowance r
    | (.event e, r) =>
      match e.outcomeOf project with
      | some success => (some success, r, allowance)
      | none => h.awaitOutcome project allowance r

end Hub

end BuildLens
