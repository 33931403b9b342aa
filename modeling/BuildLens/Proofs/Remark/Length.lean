/-
The length of a build in front of remarks.

At the end of a timed build the monitor writes a text such as `Total build time: 00:01:02.345` into
what the builds have printed.  No remark is found in it (`extract_lengthText`), but it does not end
its line, so what is printed next goes on with that line.  Then

* `scan_lengthText`: of the whole text only the seconds may belong to a location;
* `extract_lengthText_append`: and they do not, unless a remark without a drive follows at once;
* `extract_lengthText_remark`: but then they become the start of its path and of its raw message.
-/
import BuildLens.Monitor
import BuildLens.Proofs.Remark.Rendering
import BuildLens.Proofs.Text.Numeral

namespace BuildLens

open BuildLens.Text

/-! ## The characters of a length -/

namespace Text

variable {width n : Nat} {c : Char}

/-- The characters of seconds: digits and the point. -/
def isSecondsChar (c : Char) : Bool :=
  isAsciiDigit c || c == '.'

lemma toNat_of_isSecondsChar (hc : isSecondsChar c = true) : 46 ≤ c.toNat ∧ c.toNat ≤ 57 := by
  simp only [isSecondsChar, isAsciiDigit, Bool.or_eq_true, Bool.and_eq_true, decide_eq_true_eq,
    beq_iff_eq] at hc
  rcases hc with ⟨hlow, hhigh⟩ | rfl
  · exact ⟨Nat.le_trans (by decide) hlow, hhigh⟩
  · decide

lemma not_isWhite_of_isSecondsChar (hc : isSecondsChar c = true) : isWhite c = false := by
  have hrange := toNat_of_isSecondsChar hc
  simp [isWhite]
  omega

lemma isSecondsChar_of_mem_zeroPadded (hc : c ∈ zeroPadded width n) : isSecondsChar c = true := by
  rw [isSecondsChar, isAsciiDigit_of_mem_zeroPadded hc]
  rfl

end Text

namespace Span

/-- The hours and minutes at the start of the text of a span. -/
def minutesText (s : Span) : List Char :=
  zeroPadded 2 (s.millis.toNat / 3600000) ++ ':' :: zeroPadded 2 (s.millis.toNat / 60000 % 60)

/-- The seconds at the end of the text of a span. -/
def secondsText (s : Span) : List Char :=
  zeroPadded 2 (s.millis.toNat / 1000 % 60) ++ '.' :: zeroPadded 3 (s.millis.toNat % 1000)

lemma clockText_eq (s : Span) :
    clockText s.millis.toNat = s.minutesText ++ ':' :: s.secondsText := by
  simp [clockText, minutesText, secondsText]

lemma isSecondsChar_of_mem_secondsText {s : Span} {c : Char} (hc : c ∈ s.secondsText) :
    isSecondsChar c = true := by
  rw [secondsText, List.mem_append, List.mem_cons] at hc
  rcases hc with hc | rfl | hc
  · exact isSecondsChar_of_mem_zeroPadded hc
  · rfl
  · exact isSecondsChar_of_mem_zeroPadded hc

lemma isSecondsChar_of_mem_minutesText {s : Span} {c : Char} (hc : c ∈ s.minutesText) :
    isSecondsChar c = true ∨ c = ':' := by
  rw [minutesText, List.mem_append, List.mem_cons] at hc
  rcases hc with hc | rfl | hc
  · exact .inl (isSecondsChar_of_mem_zeroPadded hc)
  · exact .inr rfl
  · exact .inl (isSecondsChar_of_mem_zeroPadded hc)

lemma secondsText_ne_nil (s : Span) : s.secondsText ≠ [] :=
  List.append_ne_nil_of_left_ne_nil (zeroPadded_ne_nil _ _) _

end Span

namespace Monitor

lemma toList_lengthText (elapsed : Span) : (lengthText elapsed).toList =
    "Total build time: ".toList ++ (elapsed.minutesText ++ ':' :: elapsed.secondsText) :=
  String.toList_append.trans
    (congrArg _ (String.toList_ofList.trans elapsed.clockText_eq))

lemma mem_lengthText {elapsed : Span} {c : Char} (hc : c ∈ (lengthText elapsed).toList) :
    c ∈ "Total build time: ".toList ∨ isSecondsChar c = true ∨ c = ':' := by
  rw [toList_lengthText, List.mem_append, List.mem_append, List.mem_cons] at hc
  rcases hc with hc | hc | rfl | hc
  · exact .inl hc
  · exact .inr (Span.isSecondsChar_of_mem_minutesText hc)
  · exact .inr (.inr rfl)
  · exact .inr (.inl (Span.isSecondsChar_of_mem_secondsText hc))

/-- A letter of the text, and a line end, would have to stand among its words. -/
lemma not_mem_lengthText {c : Char} (hwords : c ∉ "Total build time: ".toList)
    (hc : isSecondsChar c = false) (hcolon : c ≠ ':') (elapsed : Span) :
    c ∉ (lengthText elapsed).toList := by
  intro hmem
  rcases mem_lengthText hmem with h | h | h
  · exact hwords h
  · exact absurd h (by simp [hc])
  · exact hcolon h

end Monitor

namespace Remark

variable {f : RemarkFamily} {g : List Char} {c : Char}

open Monitor (lengthText toList_lengthText not_mem_lengthText)

/-- There is no remark in the text about the length of a build. -/
lemma extract_lengthText (f : RemarkFamily) (elapsed : Span) :
    extract f (lengthText elapsed).toList = [] := by
  have hinfo : ¬ "info".toList <:+: (lengthText elapsed).toList := fun h =>
    not_mem_lengthText (by decide) (by decide) (by decide) elapsed
      (h.subset (by decide : 'f' ∈ "info".toList))
  rw [extract, matches?, scan_of_no_info hinfo]
  rfl

/-! ## The search along a length -/

lemma fit_of_isSecondsChar (hc : isSecondsChar c = true) : c ∉ unfit := by
  intro hmem
  have hrange := toNat_of_isSecondsChar hc
  simp only [unfit, List.mem_cons, List.not_mem_nil, or_false] at hmem
  rcases hmem with rfl | rfl | rfl | rfl | rfl | rfl | rfl <;> exact absurd hrange (by decide)

lemma isLocationChar_of_isSecondsChar (hc : isSecondsChar c = true) : isLocationChar c = true :=
  isLocationChar_of_fit (fit_of_isSecondsChar hc)

lemma not_isAsciiLetter_of_isSecondsChar (hc : isSecondsChar c = true) :
    isAsciiLetter c = false := by
  by_contra hletter
  have hrange := toNat_of_isSecondsChar hc
  have hletters := toNat_of_isAsciiLetter (Bool.of_not_eq_false hletter)
  omega

lemma literal_info_eq_none (k : List Char → Option Reading) (hc : c ≠ 'i') (rest : List Char) :
    literal "info".toList k (c :: rest) = none :=
  if_neg hc

/-- No wording starts with a digit. -/
lemma afterColon_digit (hg : Gap g) (hc : isAsciiDigit c = true) (rest : List Char) :
    afterColon f (g ++ c :: rest) = none := by
  have hletter : c ≠ 'i' := by
    rintro rfl
    exact absurd hc (by decide)
  have hsolid : isGap c = false := by
    by_contra hgap
    simp only [isGap, Bool.not_eq_false, Bool.or_eq_true, beq_iff_eq] at hgap
    rcases hgap with rfl | rfl <;> exact absurd hc (by decide)
  unfold afterColon
  induction g with
  | nil =>
    rw [List.nil_append, gap, if_neg (by simp [hsolid])]
    exact literal_info_eq_none _ hletter rest
  | cons x g ih =>
    obtain ⟨hx, hg⟩ := gap_cons.mp hg
    have hblank : x ≠ 'i' := by
      rintro rfl
      exact absurd hx (by decide)
    rw [List.cons_append, gap, if_pos hx, ih hg, literal_info_eq_none _ hblank]
    rfl

/-- Behind a colon in front of a number the location does not go on. -/
lemma driveOf_digit (hg : Gap g) (hc : isAsciiDigit c = true) (back rest : List Char) :
    driveOf back (g ++ c :: rest) = [] := by
  have hslash : startsWithSlash (g ++ c :: rest) = false := by
    cases g with
    | nil =>
      have hne : c ≠ '/' ∧ c ≠ '\\' := by
        constructor <;> (rintro rfl; exact absurd hc (by decide))
      simp [startsWithSlash, hne]
    | cons x g =>
      have hne : x ≠ '/' ∧ x ≠ '\\' := by
        have hx := (gap_cons.mp hg).1
        constructor <;> (rintro rfl; exact absurd hx (by decide))
      simp [startsWithSlash, hne]
  cases back with
  | nil => rfl
  | cons letter back => simp [driveOf, hslash]

/-- In front of a colon and a number there is no remark, and behind the colon the location starts
anew. -/
lemma scan_number (hg : Gap g) (width n : Nat) (back rest : List Char) :
    scan f 0 back (':' :: (g ++ (zeroPadded width n ++ rest))) =
      scan f 0 (g ++ zeroPadded width n).reverse rest := by
  have hlocation : ∀ c ∈ g ++ zeroPadded width n, isLocationChar c = true := by
    intro c hc
    rcases List.mem_append.mp hc with hc | hc
    · exact isLocationChar_of_isGap (hg c hc)
    · exact isLocationChar_of_isSecondsChar (isSecondsChar_of_mem_zeroPadded hc)
  obtain ⟨d, ds, hnumber⟩ := List.exists_cons_of_ne_nil (zeroPadded_ne_nil width n)
  have hmem : d ∈ zeroPadded width n := by
    rw [hnumber]
    exact List.mem_cons_self ..
  have hd := isAsciiDigit_of_mem_zeroPadded hmem
  have hnone : afterColon f (g ++ (zeroPadded width n ++ rest)) = none := by
    rw [hnumber]
    exact afterColon_digit hg hd _
  have hdrive : driveOf back (g ++ (zeroPadded width n ++ rest)) = [] := by
    rw [hnumber]
    exact driveOf_digit hg hd back _
  rw [scan, if_pos rfl, atColon, hnone, Option.map_none, ite_self, hdrive]
  dsimp only
  rw [← List.append_assoc, scan_location hlocation, List.append_nil]

/-- Of the text about the length of a build only the seconds may belong to a location. -/
theorem scan_lengthText (elapsed : Span) (rest : List Char) :
    scan f 0 [] ((lengthText elapsed).toList ++ rest) =
      scan f 0 elapsed.secondsText.reverse rest := by
  have hwords : ∀ c ∈ "Total build time".toList, isLocationChar c = true :=
    List.all_eq_true.mp (by decide)
  have hpoint : ∀ c ∈ '.' :: zeroPadded 3 (elapsed.millis.toNat % 1000),
      isLocationChar c = true := by
    rintro c hc
    rcases List.mem_cons.mp hc with rfl | hc
    · decide
    · exact isLocationChar_of_isSecondsChar (isSecondsChar_of_mem_zeroPadded hc)
  have hblank : Gap [' '] := by decide
  -- the words are followed by three numbers, each one behind a colon
  have htext : (lengthText elapsed).toList ++ rest = "Total build time".toList ++
      ':' :: ([' '] ++ (zeroPadded 2 (elapsed.millis.toNat / 3600000) ++
        ':' :: ([] ++ (zeroPadded 2 (elapsed.millis.toNat / 60000 % 60) ++
          ':' :: ([] ++ (zeroPadded 2 (elapsed.millis.toNat / 1000 % 60) ++
            (('.' :: zeroPadded 3 (elapsed.millis.toNat % 1000)) ++ rest))))))) := by
    have hcolon : "Total build time: ".toList = "Total build time".toList ++ [':', ' '] := rfl
    rw [toList_lengthText, hcolon]
    simp [Span.minutesText, Span.secondsText]
  rw [htext, scan_location hwords, scan_number hblank, scan_number gap_nil, scan_number gap_nil,
    scan_location hpoint, ← List.reverse_append, List.nil_append]
  rfl

/-! ## What goes on with the line of a length -/

/-- Whether a text starts with a remark whose location has no drive: no character that stands in
no location comes before the first colon, and a wording follows there. -/
def startsWithRemark (f : RemarkFamily) : List Char → Bool
  | [] => false
  | c :: cs =>
    if c = ':' then (afterColon f cs).isSome else isLocationChar c && startsWithRemark f cs

/-- What was read of a location does not matter, unless a text starts with a remark. -/
lemma scan_of_not_startsWithRemark {cs back back' : List Char}
    (hstarts : startsWithRemark f cs = false)
    (hdrive : ∀ rest, driveOf back rest = driveOf back' rest) :
    scan f 0 back cs = scan f 0 back' cs := by
  induction cs generalizing back back' with
  | nil => rfl
  | cons c cs ih =>
    rw [startsWithRemark] at hstarts
    by_cases hc : c = ':'
    · -- no remark is found here, and only a drive takes something along
      rw [if_pos hc, Option.isSome_eq_false_iff, Option.isNone_iff_eq_none] at hstarts
      have hnone : ∀ back, atColon f back cs = none := by
        intro back
        rw [atColon, hstarts, Option.map_none, ite_self]
      simp only [scan, hc, if_true, hnone, hdrive]
    · simp only [scan, hc, if_false]
      rw [if_neg hc] at hstarts
      cases hlocation : isLocationChar c with
      | false => rfl
      | true =>
        -- from here on both have the same last character
        rw [hlocation, Bool.true_and] at hstarts
        exact ih hstarts fun _ => rfl

variable {elapsed : Span}

lemma extract_lengthText_seconds (elapsed : Span) (cs : List Char) :
    extract f ((lengthText elapsed).toList ++ cs) = extract f (elapsed.secondsText ++ cs) := by
  have hseconds : ∀ c ∈ elapsed.secondsText, isLocationChar c = true := fun c hc =>
    isLocationChar_of_isSecondsChar (Span.isSecondsChar_of_mem_secondsText hc)
  rw [extract, extract, matches?, matches?, scan_lengthText, scan_location hseconds,
    List.append_nil]

/-- A length in front of a text changes nothing unless the text starts with a remark. -/
theorem extract_lengthText_append {cs : List Char} (hstarts : startsWithRemark f cs = false)
    (elapsed : Span) : extract f ((lengthText elapsed).toList ++ cs) = extract f cs := by
  have hdrive : ∀ rest, driveOf elapsed.secondsText.reverse rest = driveOf [] rest := by
    -- the seconds end in a digit, which names no drive
    intro rest
    obtain ⟨c, back, hback⟩ :=
      List.exists_cons_of_ne_nil (List.reverse_ne_nil_iff.mpr elapsed.secondsText_ne_nil)
    have hc : c ∈ elapsed.secondsText := by
      rw [← List.mem_reverse, hback]
      exact List.mem_cons_self ..
    have hletter := not_isAsciiLetter_of_isSecondsChar (Span.isSecondsChar_of_mem_secondsText hc)
    rw [hback]
    simp [driveOf, hletter]
  rw [extract, extract, matches?, matches?, scan_lengthText,
    scan_of_not_startsWithRemark hstarts hdrive]

/-- A path without a drive is still one with seconds in front. -/
lemma bare_seconds {path : List Char} (h : Bare path) (elapsed : Span) :
    Bare (elapsed.secondsText ++ path) where
  fit c hc := by
    rcases List.mem_append.mp hc with hc | hc
    · exact fit_of_isSecondsChar (Span.isSecondsChar_of_mem_secondsText hc)
    · exact h.fit c hc
  nonempty := List.append_ne_nil_of_right_ne_nil _ h.nonempty
  first c hc := by
    rw [List.head?_append_of_ne_nil _ elapsed.secondsText_ne_nil] at hc
    exact not_isWhite_of_isSecondsChar
      (Span.isSecondsChar_of_mem_secondsText (List.mem_of_mem_head? hc))
  last c hc := by
    rw [List.getLast?_append_of_ne_nil _ h.nonempty] at hc
    exact h.last c hc

/-- The seconds of a length become the start of the path and of the raw message of a remark that
follows at once and has no drive. -/
theorem extract_lengthText_remark (hplain : f.Plain) (htidy : f.Tidy)
    {path code phrase rest : List Char} {n : Nat} (hpath : Bare path) (hpos : 1 ≤ n)
    (hn : n < Nat.pow 2 32) (hg : Gap g) (hphrase : Phrase f code phrase) (elapsed : Span) :
    extract f ((lengthText elapsed).toList ++
        (place path n ++ (g ++ ':' :: phrase) ++ '\n' :: rest)) =
      { rawMessage :=
          String.ofList (elapsed.secondsText ++ (place path n ++ (g ++ ':' :: phrase)))
        filePath := String.ofList (elapsed.secondsText ++ path)
        line := n
        code := String.ofList code } :: extract f rest := by
  have hplace : elapsed.secondsText ++ (place path n ++ (g ++ ':' :: phrase)) =
      place (elapsed.secondsText ++ path) n ++ (g ++ ':' :: phrase) := by
    simp [place]
  have hline := extract_line hplain htidy (.remark .none gap_nil
    (.bare (bare_seconds hpath elapsed)) hpos hn hg hphrase)
  rw [extract_lengthText_seconds, ← List.append_assoc, extract_separator hplain (by decide), hplace]
  exact congrArg (· ++ extract f rest) hline

end Remark

end BuildLens
