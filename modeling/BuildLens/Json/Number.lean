/-
Number literals.

A number keeps its literal unless it is a whole number of at most 64 bits.  Where a number
has to be a double, the literal is scaled to a word of 64 bits and a power of ten, both are
rounded to doubles, and so is their product; it is out of range if it would be infinite.
-/
import BuildLens.Json.Value
import BuildLens.Text.Numeral

namespace BuildLens.Json

open BuildLens.Text

/-- A number literal, cut into its parts. -/
structure Literal where
  /-- Whether it starts with a minus sign. -/
  negative : Bool
  /-- The digits before the point. -/
  whole : List Char
  /-- The digits after the point, if there is a point. -/
  fraction : Option (List Char)
  /-- The sign and the digits of the exponent, if there is one. -/
  exponent : Option (Bool × List Char)

/-- The whole part of a number has no leading zero. -/
def isWholePart (ds : List Char) : Bool :=
  ds != [] && (ds == ['0'] || ds.head? != some '0')

/-- The exponent of a number literal, from its `e` on. -/
def readExponent : List Char → Option (Option (Bool × List Char))
  | [] => some none
  | c :: cs =>
    if c = 'e' ∨ c = 'E' then
      let (negative, ds) :=
        match cs with
        | '-' :: ds => (true, ds)
        | '+' :: ds => (false, ds)
        | ds => (false, ds)
      if ds != [] && ds.all isAsciiDigit then some (some (negative, ds)) else none
    else none

/-- The fraction and the exponent of a number literal, from its point on. -/
def readTail : List Char → Option (Option (List Char) × Option (Bool × List Char))
  | '.' :: cs =>
    let ds := cs.takeWhile isAsciiDigit
    if ds != [] then (readExponent (cs.dropWhile isAsciiDigit)).map fun e => (some ds, e)
    else none
  | cs => (readExponent cs).map fun e => (none, e)

/-- A number literal. -/
def readLiteral (cs : List Char) : Option Literal :=
  let (negative, rest) :=
    match cs with
    | '-' :: rest => (true, rest)
    | rest => (false, rest)
  let whole := rest.takeWhile isAsciiDigit
  if isWholePart whole then
    (readTail (rest.dropWhile isAsciiDigit)).map fun (fraction, exponent) =>
      ⟨negative, whole, fraction, exponent⟩
  else none

/-- The number of a literal. -/
def ofLiteral (cs : List Char) (l : Literal) : Json :=
  match l.fraction, l.exponent with
  | none, none =>
    let n := numeralValue l.whole
    if l.negative then
      if 0 < n ∧ n ≤ Nat.pow 2 63 then .integer (-n) else .real cs
    else if n ≤ maxWord64 then .integer n else .real cs
  | _, _ => .real cs

/-! ## Range -/

/-- A word extended by the digits that fit into 64 bits, and the digits from the first one on
that does not. -/
def extend (word : Nat) : List Char → Nat × List Char
  | [] => (word, [])
  | d :: ds =>
    let n := 10 * word + digitValue d
    if n ≤ maxWord64 then extend n ds else (word, d :: ds)

/-- The exponent that is written in a literal. -/
def Literal.writtenExponent (l : Literal) : Int :=
  match l.exponent with
  | none => 0
  | some (true, ds) => -(numeralValue ds : Int)
  | some (false, ds) => numeralValue ds

/-- The word and the exponent of ten that a literal is scaled to.  The word takes the digits
that fit; of those that do not, the ones in front of the point still count as places. -/
def Literal.scaled (l : Literal) : Nat × Int :=
  let fraction := l.fraction.getD []
  let (word, wholeLeft) := extend 0 l.whole
  let (word, fractionLeft) := extend word fraction
  let places : Int := wholeLeft.length - (fraction.length - fractionLeft.length)
  (word, places + l.writtenExponent)

/-- A number rounded to 53 significant binary digits; a tie goes to the even neighbour. -/
def roundToDouble (n : Nat) : Nat :=
  let excess := Nat.log2 n - 52
  let unit := Nat.pow 2 excess
  let quotient := n / unit
  let twice := 2 * (n % unit)
  let isUp := unit < twice || (unit == twice && quotient % 2 == 1)
  (if isUp then quotient + 1 else quotient) * unit

/-- The least number that is too large for a double: half a unit above the largest double. -/
def doubleBound : Nat :=
  Nat.pow 2 1024 - Nat.pow 2 970

/-- The largest power of ten that is no more than the largest double. -/
def maxDoubleExponent : Nat :=
  308

/-- Whether a number is too large for a double. -/
def Literal.overflows (l : Literal) : Bool :=
  let (word, exponent) := l.scaled
  if word = 0 ∨ exponent < 0 then false
  else if maxDoubleExponent < exponent then true
  else doubleBound ≤ roundToDouble word * roundToDouble (Nat.pow 10 exponent.toNat)

/-- Whether a value is no number that is too large for a double. -/
def isInRange : Json → Bool
  | .real cs => (readLiteral cs).any fun l => !l.overflows
  | _ => true

end BuildLens.Json
