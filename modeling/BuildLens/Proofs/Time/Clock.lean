/-
Clock texts.

The length of a build is told as a clock text `hh:mm:ss.mmm`.  It consists of four numerals, of
which only the first one grows with the length (`Clock.Proper`).  They are found again at the marks
between them (`Clock.read?`), and their values add up to the milliseconds of the length, so that two
lengths have the same text only if they have the same number of milliseconds.

The numerals are those of quotients and remainders.  For a span that can be represented these can be
computed with signed words of 64 bits: none of them overflows (`map_toInt_wordSteps`).
-/
import Mathlib.Data.Int.Basic
import Mathlib.Tactic.Common
import BuildLens.Proofs.Text.Numeral
import BuildLens.Time.Elapsed

namespace BuildLens

open BuildLens.Text

/-! ## Numerals between marks -/

/-- The four numerals of a clock text. -/
structure Clock where
  /-- The hours. -/
  hours : List Char
  /-- The minutes of the hour. -/
  minutes : List Char
  /-- The seconds of the minute. -/
  seconds : List Char
  /-- The milliseconds of the second. -/
  millis : List Char

namespace Clock

/-- The numerals with the marks between them. -/
def text (c : Clock) : List Char :=
  c.hours ++ ':' :: (c.minutes ++ ':' :: (c.seconds ++ '.' :: c.millis))

/-- The number of milliseconds that a clock text stands for. -/
def value (c : Clock) : Nat :=
  numeralValue c.hours * 3600000 + numeralValue c.minutes * 60000 +
    numeralValue c.seconds * 1000 + numeralValue c.millis

/-- The numerals of a text, cut at its marks. -/
def read? (cs : List Char) : Option Clock :=
  match cs.splitOn ':' with
  | [hours, minutes, rest] =>
    match rest.splitOn '.' with
    | [seconds, millis] => some ⟨hours, minutes, seconds, millis⟩
    | _ => none
  | _ => none

/-- A numeral of a fixed width with a value below a bound. -/
structure IsPart (width bound : Nat) (cs : List Char) : Prop where
  digits : ∀ c ∈ cs, isAsciiDigit c = true
  length : cs.length = width
  lt : numeralValue cs < bound

/-- The numerals are those of a time of the day, but for the hours, which may be any number.  They
have at least two digits, and leading zeros only to have that many. -/
structure Proper (c : Clock) : Prop where
  hours : ∀ d ∈ c.hours, isAsciiDigit d = true
  two_le : 2 ≤ c.hours.length
  head_ne : 2 < c.hours.length → c.hours.head? ≠ some '0'
  minutes : IsPart 2 60 c.minutes
  seconds : IsPart 2 60 c.seconds
  millis : IsPart 3 1000 c.millis

variable {c : Clock} {width bound n : Nat} {cs : List Char}

lemma not_mem_of_digits {mark : Char} (hmark : isAsciiDigit mark = false)
    (hcs : ∀ c ∈ cs, isAsciiDigit c = true) : mark ∉ cs := by
  intro hmem
  rw [hcs mark hmem] at hmark
  contradiction

/-- The marks stand between the numerals only. -/
lemma Proper.read?_text (hc : c.Proper) : read? c.text = some c := by
  have hrest : ':' ∉ c.seconds ++ '.' :: c.millis := by
    rw [List.mem_append, List.mem_cons]
    rintro (hmem | hmem | hmem)
    · exact not_mem_of_digits (by decide) hc.seconds.digits hmem
    · exact absurd hmem (by decide)
    · exact not_mem_of_digits (by decide) hc.millis.digits hmem
  have hcolons : c.text.splitOn ':' = [c.hours, c.minutes, c.seconds ++ '.' :: c.millis] := by
    rw [text, List.splitOn_append_cons_self_of_not_mem (not_mem_of_digits (by decide) hc.hours),
      List.splitOn_append_cons_self_of_not_mem
        (not_mem_of_digits (by decide) hc.minutes.digits),
      List.splitOn_eq_singleton hrest]
  have hpoint : (c.seconds ++ '.' :: c.millis).splitOn '.' = [c.seconds, c.millis] := by
    rw [List.splitOn_append_cons_self_of_not_mem
        (not_mem_of_digits (by decide) hc.seconds.digits),
      List.splitOn_eq_singleton (not_mem_of_digits (by decide) hc.millis.digits)]
  rw [read?, hcolons]
  dsimp only
  rw [hpoint]

lemma isPart_zeroPadded (hwidth : 0 < width) (hbound : bound ≤ 10 ^ width) (hn : n < bound) :
    IsPart width bound (zeroPadded width n) :=
  ⟨fun _ hc => isAsciiDigit_of_mem_zeroPadded hc,
    length_zeroPadded hwidth (Nat.lt_of_lt_of_le hn hbound), by rwa [numeralValue_zeroPadded]⟩

/-- The numerals of a number of milliseconds. -/
def ofMillis (ms : Nat) : Clock where
  hours := zeroPadded 2 (ms / 3600000)
  minutes := zeroPadded 2 (ms / 60000 % 60)
  seconds := zeroPadded 2 (ms / 1000 % 60)
  millis := zeroPadded 3 (ms % 1000)

lemma text_ofMillis (ms : Nat) : (ofMillis ms).text = Span.clockText ms := by
  simp [text, ofMillis, Span.clockText]

lemma value_ofMillis (ms : Nat) : (ofMillis ms).value = ms := by
  simp only [value, ofMillis, numeralValue_zeroPadded]
  omega

lemma proper_ofMillis (ms : Nat) : (ofMillis ms).Proper where
  hours _ hd := isAsciiDigit_of_mem_zeroPadded hd
  two_le := by
    simp only [ofMillis, zeroPadded, padLeft, List.length_append, List.length_replicate]
    omega
  head_ne hlength := head?_zeroPadded hlength
  minutes := isPart_zeroPadded (by decide) (by decide) (Nat.mod_lt _ (by decide))
  seconds := isPart_zeroPadded (by decide) (by decide) (Nat.mod_lt _ (by decide))
  millis := isPart_zeroPadded (by decide) (by decide) (Nat.mod_lt _ (by decide))

end Clock

/-! ## Whole milliseconds -/

namespace Span

variable {s : Span}

lemma millis_of_nonneg (hs : 0 ≤ s.nanos) : s.millis = s.nanos / 1000000 :=
  Int.tdiv_eq_ediv_of_nonneg hs

lemma millis_of_neg (hs : s.nanos < 0) : s.millis = -(-s.nanos / 1000000) := by
  rw [millis, ← Int.tdiv_eq_ediv_of_nonneg (by omega), Int.neg_tdiv, Int.neg_neg]

/-- What is left of a span after its whole milliseconds is less than a millisecond. -/
lemma toNat_millis (s : Span) :
    (s.nanos < 0 → s.millis.toNat = 0) ∧
      (0 ≤ s.nanos → (s.millis.toNat : Int) * 1000000 ≤ s.nanos ∧
        s.nanos < ((s.millis.toNat : Int) + 1) * 1000000) := by
  refine ⟨fun hs => ?_, fun hs => ?_⟩
  · rw [millis_of_neg hs]
    omega
  · rw [millis_of_nonneg hs]
    omega

/-- The milliseconds of a span that can be represented are a signed word of 64 bits. -/
lemma Representable.millis_bounds (hs : s.Representable) :
    Int64.minValue.toInt ≤ s.millis ∧ s.millis ≤ Int64.maxValue.toInt := by
  have hmax : maxMillis = 9223372036854775807 := rfl
  rw [Representable, hmax] at hs
  rw [Int64.toInt_minValue, Int64.toInt_maxValue]
  rcases Int.lt_or_le s.nanos 0 with hneg | hnonneg
  · rw [millis_of_neg hneg]
    omega
  · rw [millis_of_nonneg hnonneg]
    omega

/-! ## Words of 64 bits -/

/-- All that is computed for a clock text: the milliseconds, not less than zero, the hours, the
minutes and those of the hour, the seconds and those of the minute, and the milliseconds of the
second. -/
def wordSteps (ms : Int64) : List Int64 :=
  let total := max ms 0
  [total, total / 3600000, total / 60000, total / 60000 % 60, total / 1000, total / 1000 % 60,
    total % 1000]

lemma toInt_max_zero (x : Int64) : (max x 0).toInt = max x.toInt 0 := by
  have hmax : max x 0 = if x ≤ 0 then 0 else x := rfl
  rw [hmax]
  split_ifs with hle
  · rw [Int64.le_iff_toInt_le, Int64.toInt_zero] at hle
    rw [Int64.toInt_zero, Int.max_eq_right hle]
  · rw [Int64.le_iff_toInt_le, Int64.toInt_zero] at hle
    rw [Int.max_eq_left (by omega)]

/-- A word that is not negative is divided without overflow by a positive one. -/
lemma toInt_div_mod {x d : Int64} {n k : Nat} (hx : x.toInt = n) (hd : d.toInt = k)
    (hk : 0 < k) : (x / d).toInt = (n / k : Nat) ∧ (x % d).toInt = (n % k : Nat) := by
  have hne : d ≠ -1 := by
    rintro rfl
    have hminus : (-1 : Int64).toInt = -1 := by decide
    omega
  constructor
  · rw [Int64.toInt_div_of_ne_right _ _ hne, hx, hd, Int.tdiv_eq_ediv_of_nonneg (by omega)]
    rfl
  · rw [Int64.toInt_mod, hx, hd, Int.tmod_eq_emod_of_nonneg (by omega)]
    rfl

/-- Computed with words, everything comes out as with unbounded numbers. -/
lemma map_toInt_wordSteps {x : Int64} {n : Nat} (hx : max x.toInt 0 = n) :
    (wordSteps x).map Int64.toInt =
      [n, n / 3600000, n / 60000, n / 60000 % 60, n / 1000, n / 1000 % 60, n % 1000].map
        Int.ofNat := by
  have htotal : (max x 0).toInt = n := by rw [toInt_max_zero, hx]
  have hhours := (toInt_div_mod htotal (d := 3600000) (k := 3600000) rfl (by decide)).1
  have hminutes := (toInt_div_mod htotal (d := 60000) (k := 60000) rfl (by decide)).1
  have hseconds := toInt_div_mod htotal (d := 1000) (k := 1000) rfl (by decide)
  have hminute := (toInt_div_mod hminutes (d := 60) (k := 60) rfl (by decide)).2
  have hsecond := (toInt_div_mod hseconds.1 (d := 60) (k := 60) rfl (by decide)).2
  simp only [wordSteps, List.map_cons, List.map_nil, htotal, hhours, hminutes, hseconds.1,
    hseconds.2, hminute, hsecond]
  rfl

lemma toList_format (s : Span) : s.format.toList = (Clock.ofMillis s.millis.toNat).text := by
  rw [format, String.toList_ofList, Clock.text_ofMillis]

lemma read?_format (s : Span) :
    Clock.read? s.format.toList = some (Clock.ofMillis s.millis.toNat) := by
  rw [toList_format, (Clock.proper_ofMillis _).read?_text]

/-- The text of a span consists of the numerals of a clock, and reading it gives these numerals.
They stand for the whole milliseconds of the span, cut off toward zero, and for none if it is
negative.  So if two spans have the same text and neither has a negative number of milliseconds, it
is the same number.  The milliseconds of a span that can be represented are a word of 64 bits, and
so is all that is computed from them: computed with words, the numbers that the numerals show are
the same. -/
theorem format_clock (hs : s.Representable) :
    ∃ c : Clock, s.format.toList = c.text ∧ c.Proper ∧ Clock.read? s.format.toList = some c ∧
      (c.value : Int) = max s.millis 0 ∧
      ((s.nanos < 0 → c.value = 0) ∧
        (0 ≤ s.nanos → (c.value : Int) * 1000000 ≤ s.nanos ∧
          s.nanos < ((c.value : Int) + 1) * 1000000)) ∧
      (∀ other : Span, 0 ≤ s.millis → 0 ≤ other.millis → other.format = s.format →
        other.millis = s.millis) ∧
      (Int64.ofInt s.millis).toInt = s.millis ∧
      (wordSteps (Int64.ofInt s.millis)).map Int64.toInt =
        [c.value, numeralValue c.hours, c.value / 60000, numeralValue c.minutes,
          c.value / 1000, numeralValue c.seconds, numeralValue c.millis].map Int.ofNat := by
  obtain ⟨hlow, hhigh⟩ := hs.millis_bounds
  rw [Int64.toInt_minValue] at hlow
  rw [Int64.toInt_maxValue] at hhigh
  have hword : (Int64.ofInt s.millis).toInt = s.millis :=
    Int64.toInt_ofInt_of_le hlow (Int.lt_of_le_sub_one hhigh)
  have htotal : (s.millis.toNat : Int) = max s.millis 0 := by omega
  refine ⟨.ofMillis s.millis.toNat, s.toList_format, Clock.proper_ofMillis _, s.read?_format, ?_,
    ?_, fun other hmillis hother heq => ?_, hword, ?_⟩
  · rw [Clock.value_ofMillis, htotal]
  · rw [Clock.value_ofMillis]
    exact s.toNat_millis
  · have hread := other.read?_format
    rw [heq, read?_format, Option.some.injEq] at hread
    have hvalue := congrArg Clock.value hread
    rw [Clock.value_ofMillis, Clock.value_ofMillis] at hvalue
    omega
  · rw [map_toInt_wordSteps (by rw [hword, htotal]), Clock.value_ofMillis]
    simp only [Clock.ofMillis, numeralValue_zeroPadded]

/-- The longest span that can be represented. -/
def longest : Span :=
  ⟨maxMillis * 1000000⟩

/-- Its hours take thirteen digits. -/
theorem format_clock_of_longest :
    longest.Representable ∧ longest.format = "2562047788015:12:55.807" ∧
      ∃ c : Clock, longest.format.toList = c.text ∧ c.Proper ∧
        Clock.read? longest.format.toList = some c ∧ (c.value : Int) = max longest.millis 0 ∧
        (Int64.ofInt longest.millis).toInt = longest.millis := by
  have hrepresentable : longest.Representable := by decide +kernel
  obtain ⟨c, htext, hproper, hread, hvalue, -, -, hword, -⟩ := format_clock hrepresentable
  exact ⟨hrepresentable, by decide +kernel, c, htext, hproper, hread, hvalue, hword⟩

end Span

end BuildLens
