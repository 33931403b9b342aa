/-
Numerals of a fixed width.

A number that fits is written with exactly as many digits as are asked for (`length_zeroPadded`), a
larger one without a leading zero (`head?_zeroPadded`), and it is the value of these digits
(`numeralValue_zeroPadded`).
-/
import Mathlib.Algebra.Order.Group.Nat
import BuildLens.Text.Blank
import BuildLens.Text.Numeral

namespace BuildLens.Text

variable {width n : Nat} {c : Char}

lemma not_isWhite_of_isAsciiDigit (hc : isAsciiDigit c = true) : isWhite c = false := by
  simp only [isAsciiDigit, Bool.and_eq_true, decide_eq_true_eq] at hc
  have hlow : 0x30 ≤ c.toNat := hc.1
  have hhigh : c.toNat ≤ 0x39 := hc.2
  simp [isWhite]
  omega

lemma isAsciiDigit_of_mem_zeroPadded (hc : c ∈ zeroPadded width n) : isAsciiDigit c = true := by
  rw [zeroPadded, padLeft, List.mem_append] at hc
  rcases hc with hfill | hdigit
  · rw [List.eq_of_mem_replicate hfill]
    rfl
  · exact isAsciiDigit_of_mem_digits hdigit

lemma zeroPadded_ne_nil (width n : Nat) : zeroPadded width n ≠ [] :=
  List.append_ne_nil_of_right_ne_nil _ Nat.toDigits_ne_nil

lemma length_zeroPadded (hwidth : 0 < width) (hn : n < 10 ^ width) :
    (zeroPadded width n).length = width := by
  have hlength : (digits n).length ≤ width :=
    (Nat.length_toDigits_le_iff (by decide) hwidth).mpr hn
  rw [zeroPadded, padLeft, List.length_append, List.length_replicate, Nat.sub_add_cancel hlength]

/-- A number has no leading zero. -/
lemma head?_digits (hn : 0 < n) : (digits n).head? ≠ some '0' := by
  induction n using Nat.strongRecOn with
  | ind n ih =>
    by_cases hsmall : n < 10
    · rw [digits, Nat.toDigits_of_lt_base hsmall, List.head?_singleton, ne_eq, Option.some.injEq,
        Nat.digitChar_eq_zero]
      exact Nat.ne_of_gt hn
    · -- all digits but the last one are those of a tenth of the number
      have hsplit : digits n = digits (n / 10) ++ Nat.toDigits 10 (n % 10) := by
        rw [digits, digits, Nat.toDigits_append_toDigits (by decide) (by omega)
          (Nat.mod_lt _ (by decide)), Nat.div_add_mod]
      obtain ⟨d, ds, hd⟩ := List.exists_cons_of_ne_nil (Nat.toDigits_ne_nil (b := 10) (n := n / 10))
      have hfirst := ih (n / 10) (by omega) (by omega)
      rw [hsplit]
      rw [digits, hd] at hfirst ⊢
      exact hfirst

/-- Zeros are filled in up to the width only. -/
lemma head?_zeroPadded (hlength : max width 1 < (zeroPadded width n).length) :
    (zeroPadded width n).head? ≠ some '0' := by
  rw [zeroPadded, padLeft, List.length_append, List.length_replicate] at hlength
  have hfill : width - (digits n).length = 0 := by omega
  have hn : 0 < n := by
    rcases Nat.eq_zero_or_pos n with rfl | hn
    · have hone : (digits 0).length = 1 := rfl
      omega
    · exact hn
  rw [zeroPadded, padLeft, hfill, List.replicate_zero, List.nil_append]
  exact head?_digits hn

/-! ## Values -/

lemma numeralValue_eq (cs : List Char) : numeralValue cs = Nat.ofDigitChars 10 cs 0 := rfl

lemma numeralValue_digits (n : Nat) : numeralValue (digits n) = n :=
  Nat.ofDigitChars_toDigits (by decide) (by decide)

/-- Every digit behind some others makes them count ten times as much. -/
lemma numeralValue_append (cs ds : List Char) :
    numeralValue (cs ++ ds) = 10 ^ ds.length * numeralValue cs + numeralValue ds := by
  rw [numeralValue_eq, Nat.ofDigitChars_append, Nat.ofDigitChars_eq_ofDigitChars_zero,
    ← numeralValue_eq, ← numeralValue_eq]

lemma numeralValue_zeros (k : Nat) : numeralValue (List.replicate k '0') = 0 := by
  rw [numeralValue_eq, Nat.ofDigitChars_replicate_zero, Nat.mul_zero]

lemma numeralValue_zeroPadded (width n : Nat) : numeralValue (zeroPadded width n) = n := by
  rw [zeroPadded, padLeft, numeralValue_append, numeralValue_zeros, numeralValue_digits,
    Nat.mul_zero, Nat.zero_add]

end BuildLens.Text
