/-
Lengths of time.

A span is a whole number of nanoseconds, positive or negative.  What builds report is the
text `hh:mm:ss.mmm` of its whole milliseconds; a negative span counts as zero.
-/
import BuildLens.Text.Numeral

namespace BuildLens

open BuildLens.Text

/-- A length of time. -/
structure Span where
  /-- The length in nanoseconds. -/
  nanos : Int
  deriving DecidableEq

namespace Span

/-- The largest signed word of 64 bits. -/
def maxSigned64 : Int :=
  Int.ofNat (Nat.pow 2 63) - 1

/-- The largest number of milliseconds of a span that can be represented. -/
def maxMillis : Int :=
  maxSigned64

/-- The spans whose length in milliseconds fits a signed word of 64 bits, the same number
of milliseconds in both directions. -/
def Representable (s : Span) : Prop :=
  -(maxMillis * 1000000) ≤ s.nanos ∧ s.nanos ≤ maxMillis * 1000000

instance (s : Span) : Decidable s.Representable :=
  inferInstanceAs (Decidable (_ ∧ _))

/-- The span of a number of milliseconds, if it can be represented. -/
def ofMillis? (ms : Int) : Option Span :=
  if Representable ⟨ms * 1000000⟩ then some ⟨ms * 1000000⟩ else none

/-- The span of a number of seconds and a part of a second in nanoseconds, if it can be
represented. -/
def ofParts? (seconds : Int) (nanos : Nat) : Option Span :=
  if nanos < 1000000000 ∧ Representable ⟨seconds * 1000000000 + nanos⟩ then
    some ⟨seconds * 1000000000 + nanos⟩
  else none

/-- The whole milliseconds of a span, cut off toward zero. -/
def millis (s : Span) : Int :=
  s.nanos.tdiv 1000000

/-- The whole microseconds of a span, cut off toward zero, if they fit a signed word of 64
bits. -/
def micros? (s : Span) : Option Int :=
  let n := s.nanos.tdiv 1000
  if -maxSigned64 - 1 ≤ n ∧ n ≤ maxSigned64 then some n else none

/-- The span itself, or zero if it is negative. -/
def clamped (s : Span) : Span :=
  ⟨max s.nanos 0⟩

/-- The text `hh:mm:ss.mmm` of a number of milliseconds. -/
def clockText (ms : Nat) : List Char :=
  zeroPadded 2 (ms / 3600000) ++ ':' :: zeroPadded 2 (ms / 60000 % 60) ++
    ':' :: zeroPadded 2 (ms / 1000 % 60) ++ '.' :: zeroPadded 3 (ms % 1000)

/-- The text `hh:mm:ss.mmm` of a span. -/
def format (s : Span) : String :=
  String.ofList (clockText s.millis.toNat)

end Span

end BuildLens
