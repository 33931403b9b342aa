/-
Recordings of builds.

A recording is a text with one event in JSON on a line.  Blank lines are passed over, but
they count as lines.
-/
import BuildLens.Model.Event
import BuildLens.Text.Blank
import BuildLens.Text.Line

namespace BuildLens.Recording

open BuildLens.Text

/-- The event of a line; an event without a time happens now. -/
def readLine (now : Instant) (line : List Char) : Option BuildEvent :=
  (Json.read line).bind (BuildEvent.ofJson now)

/-- The events of some lines, of which the first one has a given number, or the number of
the first line that is no event. -/
def readLines (now : Instant) (number : Nat) : List (List Char) → Except Nat (List BuildEvent)
  | [] => .ok []
  | line :: ls =>
    if line.all isWhite then readLines now (number + 1) ls
    else
      match readLine now line with
      | none => .error number
      | some e => (readLines now (number + 1) ls).map (e :: ·)

/-- The events of a recording, or the number of the first line that is no event. -/
def read (now : Instant) (cs : List Char) : Except Nat (List BuildEvent) :=
  readLines now 1 (lines cs)

/-- A recording of some events. -/
def write (es : List BuildEvent) : List Char :=
  unlines (es.map fun e => Json.render e.toJson)

end BuildLens.Recording
