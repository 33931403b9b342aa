/-
Decimal numerals: writing a number with a least width, and reading one that must stay
below a bound.

Numbers are read digit by digit from the left.  A numeral may have leading zeros, and the
reader that accepts a sign accepts one leading `+` only.
-/
import BuildLens.Text.Digit

namespace BuildLens.Text

/-- The decimal digits of a number, without leading zeros. -/
def digits (n : Nat) : List Char :=
  Nat.toDigits 10 n

/-- A text filled up on its left to a least width. -/
def padLeft (width : Nat) (fill : Char) (cs : List Char) : List Char :=
  List.replicate (width - cs.length) fill ++ cs

/-- A text filled up on its right to a least width. -/
def padRight (width : Nat) (fill : Char) (cs : List Char) : List Char :=
  cs ++ List.replicate (width - cs.length) fill

/-- The decimal digits of a number, filled up with zeros to a least width. -/
def zeroPadded (width n : Nat) : List Char :=
  padLeft width '0' (digits n)

/-- The value of a digit `0` to `9`. -/
def digitValue (c : Char) : Nat :=
  c.toNat - '0'.toNat

/-- The number that a row of digits stands for. -/
def numeralValue (cs : List Char) : Nat :=
  cs.foldl (fun n c => 10 * n + digitValue c) 0

/-- The number that a non-empty row of digits `0` to `9` stands for. -/
def readNumeral (cs : List Char) : Option Nat :=
  if cs ≠ [] ∧ cs.all isAsciiDigit then some (numeralValue cs) else none

/-- A numeral of at most a given value. -/
def readNumeralUpTo (limit : Nat) (cs : List Char) : Option Nat :=
  (readNumeral cs).filter (· ≤ limit)

/-- A numeral of at most a given value that may start with one `+`. -/
def readSignedUpTo (limit : Nat) : List Char → Option Nat
  | '+' :: cs => readNumeralUpTo limit cs
  | cs => readNumeralUpTo limit cs

/-- The largest line number of a remark. -/
def maxWord32 : Nat :=
  Nat.pow 2 32 - 1

/-- The largest line number of a document. -/
def maxWord64 : Nat :=
  Nat.pow 2 64 - 1

theorem isAsciiDigit_of_mem_digits {n : Nat} {c : Char} (hc : c ∈ digits n) :
    isAsciiDigit c = true := by
  have hdigit := Nat.isDigit_of_mem_toDigits (by decide) (by decide) hc
  simpa [isAsciiDigit, Char.isDigit, Char.le_def] using hdigit

/-- A number is read off its digits. -/
theorem readNumeral_digits (n : Nat) : readNumeral (digits n) = some n := by
  have hall : (digits n).all isAsciiDigit = true :=
    List.all_eq_true.mpr fun _ hc => isAsciiDigit_of_mem_digits hc
  have hvalue : numeralValue (digits n) = n := Nat.ofDigitChars_toDigits (by decide) (by decide)
  rw [readNumeral, if_pos ⟨Nat.toDigits_ne_nil, hall⟩, hvalue]

theorem readNumeralUpTo_digits {limit n : Nat} (hn : n ≤ limit) :
    readNumeralUpTo limit (digits n) = some n := by
  rw [readNumeralUpTo, readNumeral_digits]
  simp [hn]

end BuildLens.Text
