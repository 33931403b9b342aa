/-
Literal search.

The place of a row of bytes inside another one, and the line of a place.
-/
import BuildLens.Text.Utf8

namespace BuildLens.Locate

open BuildLens.Text

/-- The first place at which a row of bytes occurs. -/
def find? (needle : Bytes) : Bytes → Option Nat
  | [] => if needle.isEmpty then some 0 else none
  | b :: bs => if needle.isPrefixOf (b :: bs) then some 0 else (find? needle bs).map (· + 1)

/-- The line of a place, counted from 1. -/
def lineAt (bs : Bytes) (offset : Nat) : Nat :=
  (bs.take offset).count 0x0A + 1

end BuildLens.Locate
