/-
Instants are read off their texts.

Every part of the text of an instant is a mark and a numeral of a fixed width, so every part is read
off the front of what follows it: `takeNumber_zeroPadded`, `takeMarked_zeroPadded`.  The part of a
second is written with 3, 6 or 9 digits and read as if zeros stood behind it:
`takeFraction_fractionText`.  Put together, an instant of the years 0 to 9999 is read off its text,
leap seconds included: `read_write`.
-/
import Mathlib.Data.List.TakeWhile
import BuildLens.Proofs.Text.Numeral
import BuildLens.Time.Instant

namespace BuildLens

lemma daysInMonth_le (year : Int) (month : Nat) : daysInMonth year month ≤ 31 := by
  rw [daysInMonth]
  split_ifs <;> omega

lemma Date.of?_self (d : Date) : Date.of? d.year d.month d.day = some d := by
  rw [Date.of?, dif_pos d.month_mem, dif_pos d.day_mem]

namespace Instant

open BuildLens.Text

/-! ## Numerals and marks -/

section Parts

variable {width n : Nat} {rest : List Char}

lemma trimStart_zeroPadded (width n : Nat) (rest : List Char) :
    trimStart isWhite (zeroPadded width n ++ rest) = zeroPadded width n ++ rest := by
  obtain ⟨d, ds, hd⟩ := List.exists_cons_of_ne_nil (zeroPadded_ne_nil width n)
  have hdigit : isAsciiDigit d = true := isAsciiDigit_of_mem_zeroPadded (by rw [hd]; simp)
  rw [hd, trimStart, List.cons_append, List.dropWhile_cons_of_neg]
  simp [not_isWhite_of_isAsciiDigit hdigit]

lemma takeWhile_zeroPadded (width n : Nat) :
    (zeroPadded width n).takeWhile isAsciiDigit = zeroPadded width n :=
  List.takeWhile_eq_self_iff.mpr fun _ hc => isAsciiDigit_of_mem_zeroPadded hc

lemma takeNumber_zeroPadded (hwidth : 0 < width) (hn : n < 10 ^ width) (rest : List Char) :
    takeNumber width (zeroPadded width n ++ rest) = some (n, rest) := by
  have hlength := length_zeroPadded hwidth hn
  have htake : (zeroPadded width n ++ rest).take width = zeroPadded width n := by
    rw [List.take_left' hlength]
  have hdrop : (zeroPadded width n ++ rest).drop (zeroPadded width n).length = rest :=
    List.drop_left
  simp [takeNumber, htake, takeWhile_zeroPadded, zeroPadded_ne_nil, hdrop, numeralValue_zeroPadded]

lemma takePart_zeroPadded (hn : n < 100) (rest : List Char) :
    takePart (zeroPadded 2 n ++ rest) = some (n, rest) := by
  rw [takePart, trimStart_zeroPadded, takeNumber_zeroPadded (by decide) hn]

lemma takeMarked_zeroPadded {mark : Char} (hmark : isWhite mark = false) (hn : n < 100)
    (rest : List Char) : takeMarked mark (mark :: (zeroPadded 2 n ++ rest)) = some (n, rest) := by
  have htrim : trimStart isWhite (mark :: (zeroPadded 2 n ++ rest)) =
      mark :: (zeroPadded 2 n ++ rest) := by
    rw [trimStart, List.dropWhile_cons_of_neg (by simp [hmark])]
  rw [takeMarked, htrim]
  simp [skip, takePart_zeroPadded hn]

/-- A year of four digits has no sign. -/
lemma takeYear_yearText {year : Int} (h : 0 ≤ year ∧ year ≤ 9999) (rest : List Char) :
    takeYear (yearText year ++ rest) = some (year, rest) := by
  obtain ⟨n, rfl⟩ := Int.eq_ofNat_of_zero_le h.1
  have hn : n < 10 ^ 4 := by omega
  have hnumber := takeNumber_zeroPadded (by decide) hn rest
  obtain ⟨d, ds, hd⟩ := List.exists_cons_of_ne_nil (zeroPadded_ne_nil 4 n)
  have hdigit : isAsciiDigit d = true := isAsciiDigit_of_mem_zeroPadded (by rw [hd]; simp)
  have hminus : d ≠ '-' := by
    rintro rfl
    simp [isAsciiDigit] at hdigit
  have hplus : d ≠ '+' := by
    rintro rfl
    simp [isAsciiDigit] at hdigit
  rw [yearText, if_pos h, Int.toNat_natCast, takeYear, trimStart_zeroPadded]
  rw [hd, List.cons_append] at hnumber ⊢
  split
  · next heq => exact absurd (List.cons.inj heq).1 hminus
  · next heq => exact absurd (List.cons.inj heq).1 hplus
  · rw [hnumber]
    rfl

end Parts

/-! ## The part of a second -/

lemma nanosOf_zeroPadded {places n : Nat} (hpos : 0 < places) (hplaces : places ≤ 9)
    (hn : n < 10 ^ places) : nanosOf (zeroPadded places n) = 10 ^ (9 - places) * n := by
  have hlength := length_zeroPadded hpos hn
  have htake : (zeroPadded places n ++ List.replicate 9 '0').take 9 =
      zeroPadded places n ++ List.replicate (9 - places) '0' := by
    rw [List.take_append, hlength, List.take_of_length_le (by omega), List.take_replicate,
      Nat.min_eq_left (by omega)]
  rw [nanosOf, htake, numeralValue_append, numeralValue_zeros, numeralValue_zeroPadded,
    List.length_replicate, Nat.add_zero]

lemma takeFraction_zeroPadded {places n : Nat} (hpos : 0 < places) (hplaces : places ≤ 9)
    (hn : n < 10 ^ places) :
    takeFraction ('.' :: zeroPadded places n ++ ['Z']) = some (10 ^ (9 - places) * n, ['Z']) := by
  have hdigits : ∀ c ∈ zeroPadded places n, isAsciiDigit c = true :=
    fun _ hc => isAsciiDigit_of_mem_zeroPadded hc
  have htake : (zeroPadded places n ++ ['Z']).takeWhile isAsciiDigit = zeroPadded places n := by
    rw [List.takeWhile_append_of_pos hdigits]
    simp [isAsciiDigit]
  have hdrop : (zeroPadded places n ++ ['Z']).dropWhile isAsciiDigit = ['Z'] := by
    rw [List.dropWhile_append_of_pos hdigits]
    simp [isAsciiDigit]
  rw [List.cons_append, takeFraction, htake, hdrop, nanosOf_zeroPadded hpos hplaces hn]
  simp [zeroPadded_ne_nil]

/-- As many digits are written as are needed, and as many nanoseconds are read. -/
lemma takeFraction_fractionText {nano : Nat} (h : nano < nanosPerSecond) :
    takeFraction (fractionText nano ++ ['Z']) = some (nano, ['Z']) := by
  rw [nanosPerSecond] at h
  rw [fractionText]
  split_ifs with hzero hmillis hmicros
  · subst hzero
    rfl
  · rw [takeFraction_zeroPadded (by decide) (by decide) (by omega)]
    congr 2
    omega
  · rw [takeFraction_zeroPadded (by decide) (by decide) (by omega)]
    congr 2
    omega
  · rw [takeFraction_zeroPadded (by decide) (by decide) (by omega)]
    congr 2
    omega

/-! ## The time of day -/

variable (t : Instant)

/-- The second and the nanoseconds are read off the hour, the minute and the shown second. -/
lemma timeOfDay?_self :
    timeOfDay? (t.second / 3600) (t.second / 60 % 60) t.shownSecond (t.nano % nanosPerSecond) =
      some (t.second, t.nano) := by
  have hsecond : t.second < 86400 := t.second_lt
  by_cases hleap : nanosPerSecond ≤ t.nano
  · have hlast := t.leap hleap
    have hnano := t.nano_lt
    have hmod : nanosPerSecond + t.nano % nanosPerSecond = t.nano := by
      rw [Nat.mod_eq_sub_mod hleap, Nat.mod_eq_of_lt (by omega), Nat.add_sub_cancel' hleap]
    rw [timeOfDay?, shownSecond, if_pos hleap, if_neg (by omega), if_pos rfl, hmod]
    congr 2
    omega
  · rw [timeOfDay?, shownSecond, if_neg hleap, if_neg (by omega), if_neg (by omega),
      Nat.mod_eq_of_lt (Nat.lt_of_not_le hleap)]
    congr 2
    omega

lemma atOffset?_zero : atOffset? t.date t.second t.nano 0 = some t := by
  have hsecond := t.second_lt
  have hutc : ¬ ((t.second : Int) < 0) ∧ ¬ ((secondsPerDay : Int) ≤ t.second) := by omega
  simp [atOffset?, hutc, t.second_lt, t.nano_lt]
  exact t.leap

/-- An instant of a year of four digits is read off its text. -/
theorem read_write (hyear : 0 ≤ t.date.year ∧ t.date.year ≤ 9999) : read t.write = some t := by
  have hmonth : t.date.month < 100 := by
    have := t.date.month_mem
    omega
  have hday : t.date.day < 100 := by
    have := t.date.day_mem
    have := daysInMonth_le t.date.year t.date.month
    omega
  have hsecond : t.second < 86400 := t.second_lt
  have hshown : t.shownSecond < 100 := by
    rw [shownSecond]
    split_ifs <;> omega
  have hnano : t.nano % nanosPerSecond < nanosPerSecond := Nat.mod_lt _ (by decide)
  have hreadable : isReadableYear t.date.year = true := by
    simp only [isReadableYear, Bool.and_eq_true, decide_eq_true_eq]
    omega
  have hdash : isWhite '-' = false := by decide
  have hcolon : isWhite ':' = false := by decide
  have hskip : ∀ cs, skip (fun c => c == 'T' || c == 't' || c == ' ') ('T' :: cs) = some cs :=
    fun _ => rfl
  have hoffset : takeOffset (trimStart isWhite ['Z']) = some (0, []) := by decide
  -- the parts are read one after the other, and then put together
  simp only [read, write, List.append_assoc, List.cons_append, takeYear_yearText hyear,
    takeMarked_zeroPadded hdash hmonth, takeMarked_zeroPadded hdash hday, hskip,
    takePart_zeroPadded (show t.second / 3600 < 100 by omega),
    takeMarked_zeroPadded hcolon (show t.second / 60 % 60 < 100 by omega),
    takeMarked_zeroPadded hcolon hshown, takeFraction_fractionText hnano, hoffset,
    Option.bind_eq_bind, Option.bind_some]
  simp [Date.of?_self, timeOfDay?_self, atOffset?_zero, hreadable]

end Instant

end BuildLens
