/-
Shares in percent.

A share is shown in percent without decimals.  Its double is multiplied by 100 as a double,
and the exact value of that product is rounded: a half goes to the even neighbour.
-/
import BuildLens.Progress.Tracker

namespace BuildLens

open BuildLens.Text

/-- The whole number next to a quotient; of two that are equally near, the even one. -/
def roundQuotient (n d : Nat) : Nat :=
  let q := n / d
  let twice := 2 * (n % d)
  if twice < d ∨ (twice = d ∧ q % 2 = 0) then q else q + 1

/-- The exponent of the unit of doubles: every double is a multiple of `2 ^ -1074`. -/
def unitExponent : Nat :=
  1074

/-- The one that is implied in front of the 52 bits of a fraction. -/
def impliedOne : Nat :=
  Nat.pow 2 52

/-- The number of units in a finite double that is not negative.  The 52 lower bits are the
fraction, the 11 bits above them the exponent; the one is implied unless the exponent is
zero. -/
def doubleUnits (x : Float) : Nat :=
  let bits := x.toBits.toNat
  let exponent := bits / impliedOne % 2048
  let fraction := bits % impliedOne
  if exponent = 0 then fraction else (impliedOne + fraction) * Nat.pow 2 (exponent - 1)

namespace Share

/-- A share in percent, as a whole number. -/
def percent (s : Share) : Nat :=
  roundQuotient (doubleUnits (s.toFloat * 100)) (Nat.pow 2 unitExponent)

/-- How a share in percent is written: in at least three columns. -/
def percentText (s : Share) : String :=
  String.ofList (padLeft 3 ' ' (digits s.percent)) ++ "%"

end Share

end BuildLens
