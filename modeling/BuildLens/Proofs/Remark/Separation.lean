/-
Separators.

Some characters have no place in a remark: those that end a line, and those that stand in no
path.  If the words of a family have none of them either, then no remark of the family crosses
such a character, and nothing that is found on one side of it depends on the other side:

* `afterColon_stopsAt`: the reader of a wording does not see beyond a separator;
* `scan_separator`: so the search starts afresh behind it, wherever it stands;
* `extract_separated`: the diagnostics of a text are those of its pieces, in order.
-/
import BuildLens.Proofs.Remark.Wording
import BuildLens.Remark.Extract
import BuildLens.Text.Line

namespace BuildLens

open BuildLens.Text

/-- The characters that stand in no remark. -/
def Remark.separators : List Char :=
  ['\n', '\r', '>', '<', '|', '"']

/-- There are no separators in the id and in the text of a family. -/
def RemarkFamily.Plain (f : RemarkFamily) : Prop :=
  ∀ c ∈ Remark.separators, c ∉ f.id.toList ∧ c ∉ f.text.toList

instance (f : RemarkFamily) : Decidable f.Plain :=
  decidable_of_iff
    (Remark.separators.all fun c => !f.id.toList.contains c && !f.text.toList.contains c)
    (by simp [RemarkFamily.Plain])

namespace Remark

/-- A separator is no character of a wording, and none of a location. -/
lemma separator_class : ∀ c ∈ separators, isGap c = false ∧ isDecimal c = false ∧
    isLocationChar c = false ∧ c ≠ ':' ∧ c ≠ '\'' ∧ c ≠ '/' ∧ c ≠ '\\' ∧
    c ∉ "info".toList ∧ c ∉ " due to reason ".toList := by
  intro c hc
  simp only [separators, List.mem_cons, List.not_mem_nil, or_false] at hc
  rcases hc with rfl | rfl | rfl | rfl | rfl | rfl <;> decide

/-! ## Readings -/

section

variable {c : Char} {k : List Char → Option Reading} {w : List Char}

lemma takeWhile_append_cons {p : Char → Bool} (hc : p c = false) (cs rest : List Char) :
    (cs ++ c :: rest).takeWhile p = cs.takeWhile p := by
  induction cs with
  | nil => simp [hc]
  | cons x cs ih => simp only [List.cons_append, List.takeWhile_cons, ih]

lemma dropWhile_append_cons {p : Char → Bool} (hc : p c = false) (cs rest : List Char) :
    (cs ++ c :: rest).dropWhile p = cs.dropWhile p ++ c :: rest := by
  induction cs with
  | nil => simp [hc]
  | cons x cs ih =>
    simp only [List.cons_append, List.dropWhile_cons, ih]
    split <;> rfl

/-- A reading does not depend on what stands behind a given character. -/
def StopsAt (c : Char) (k : List Char → Option Reading) : Prop :=
  ∀ cs rest, k (cs ++ c :: rest) = k cs

namespace StopsAt

lemma literal (hw : c ∉ w) (hk : StopsAt c k) : StopsAt c (literal w k) := by
  intro cs rest
  induction w generalizing cs with
  | nil => exact hk cs rest
  | cons x w ih =>
    obtain ⟨hx, hw⟩ := List.ne_and_not_mem_of_not_mem_cons hw
    cases cs with
    | nil => simp [Remark.literal, hx]
    | cons y cs => simp [Remark.literal, ih hw cs]

lemma gap (hc : isGap c = false) (hk : StopsAt c k) : StopsAt c (gap k) := by
  intro cs rest
  induction cs with
  | nil => simpa [Remark.gap, hc] using hk [] rest
  | cons y cs ih =>
    have hy := hk (y :: cs) rest
    rw [List.cons_append] at hy ⊢
    rw [Remark.gap, Remark.gap, ih, hy]

lemma narrowGap (hc : isGap c = false) (hk : StopsAt c k) : StopsAt c (narrowGap k) := by
  intro cs rest
  cases cs with
  | nil => simp [Remark.narrowGap, hc]
  | cons y cs => simp [Remark.narrowGap, hk cs rest]

lemma wideGap (hc : isGap c = false) (hk : StopsAt c k) : StopsAt c (wideGap k) :=
  (hk.gap hc).narrowGap hc

lemma wording (hc : isGap c = false) (hw : c ∉ w) (hk : StopsAt c k) :
    StopsAt c (wording w k) := by
  induction w using wording.induct with
  | case1 => exact hk
  | case2 w ih => exact (ih (List.not_mem_of_not_mem_cons hw)).narrowGap hc
  | case3 w hsolid ih =>
    rw [Remark.wording]
    · exact (ih (List.not_mem_of_not_mem_cons hw)).wideGap hc
    · exact hsolid
  | case4 x w hx hx' ih =>
    obtain ⟨hne, hw⟩ := List.ne_and_not_mem_of_not_mem_cons hw
    rw [Remark.wording]
    · exact (ih hw).literal (by simpa using hne)
    · exact hx
    · exact hx'

lemma spaced (hc : isGap c = false) (hw : c ∉ w) (hk : StopsAt c k) : StopsAt c (spaced w k) := by
  rw [show Remark.spaced w k = if w.head? = some ' ' then Remark.wording w k
    else Remark.gap (Remark.wording w k) from rfl]
  split
  · exact hk.wording hc hw
  · exact (hk.wording hc hw).gap hc

lemma reasonCode (hc : isDecimal c = false) (hquote : c ≠ '\'') : StopsAt c reasonCode := by
  intro cs rest
  have hhead : ((cs.dropWhile isDecimal ++ c :: rest).head? = some '\'') =
      ((cs.dropWhile isDecimal).head? = some '\'') := by
    cases cs.dropWhile isDecimal <;> simp [hquote]
  simp only [Remark.reasonCode, takeWhile_append_cons hc, dropWhile_append_cons hc, hhead]

end StopsAt

/-- The reader of a wording does not see beyond a separator. -/
theorem afterColon_stopsAt {f : RemarkFamily} (hf : f.Plain) (hc : c ∈ separators) :
    StopsAt c (afterColon f) := by
  obtain ⟨hgap, hdecimal, -, hcolon, hquote, -, -, hinfo, hdue⟩ := separator_class c hc
  obtain ⟨hid, htext⟩ := hf c hc
  have hreason : StopsAt c (literal ['\''] reasonCode) :=
    (StopsAt.reasonCode hdecimal hquote).literal (by simpa using hquote)
  have hwords : StopsAt c (spaced (f.text.toList ++ " due to reason ".toList)
      (literal ['\''] reasonCode)) :=
    hreason.spaced hgap (by rw [List.mem_append, not_or]; exact ⟨htext, hdue⟩)
  have hafterId := (hwords.literal (w := [':']) (by simpa using hcolon)).literal hid
  exact ((hafterId.wideGap hgap).literal hinfo).gap hgap

end

/-! ## The search -/

section

variable {f : RemarkFamily} {c : Char} {m : Match} {n : Nat} {back cs : List Char}

/-- A remark that is found at a colon ends in the text. -/
lemma length_le_of_atColon (h : atColon f back cs = some (m, n)) : n ≤ cs.length := by
  rw [atColon] at h
  split at h
  · simp at h
  · obtain ⟨r, hr, heq⟩ := Option.map_eq_some_iff.mp h
    obtain ⟨rest, rfl, -⟩ := phrase_of_afterColon hr
    rw [← (Prod.mk.inj heq).2, List.length_append]
    exact Nat.le_add_right _ _

lemma atColon_separator (hf : f.Plain) (hc : c ∈ separators) (back cs rest : List Char) :
    atColon f back (cs ++ c :: rest) = atColon f back cs := by
  rw [atColon, atColon, afterColon_stopsAt hf hc]

lemma driveOf_separator (hc : c ∈ separators) (back cs rest : List Char) :
    driveOf back (cs ++ c :: rest) = driveOf back cs := by
  obtain ⟨-, -, -, -, -, hslash, hbackslash, -⟩ := separator_class c hc
  have hstarts : startsWithSlash (cs ++ c :: rest) = startsWithSlash cs := by
    cases cs <;> simp [startsWithSlash, hslash, hbackslash]
  cases back <;> simp [driveOf, hstarts]

/-- Behind a separator the search starts afresh, and up to it the search goes on as if the text
ended there. -/
theorem scan_separator (hf : f.Plain) (hc : c ∈ separators) {skipped : Nat}
    {a : List Char} (ha : skipped ≤ a.length) (back b : List Char) :
    scan f skipped back (a ++ c :: b) = scan f skipped back a ++ scan f 0 [] b := by
  induction a generalizing skipped back with
  | nil =>
    obtain ⟨-, -, hlocation, hcolon, -⟩ := separator_class c hc
    obtain rfl : skipped = 0 := Nat.le_zero.mp ha
    simp [scan, hcolon, hlocation]
  | cons x a ih =>
    cases skipped with
    | succ n => exact ih (Nat.le_of_succ_le_succ ha) []
    | zero =>
      by_cases hx : x = ':'
      · simp only [List.cons_append, scan, hx, if_true, atColon_separator hf hc,
          driveOf_separator hc]
        -- a remark that is found here ends in front of the separator
        cases hm : atColon f back a with
        | none => exact ih (Nat.zero_le _) _
        | some found =>
          obtain ⟨m, n⟩ := found
          exact congrArg (m :: ·) (ih (length_le_of_atColon hm) [])
      · simpa only [List.cons_append, scan, hx, if_false] using ih (Nat.zero_le _) _

end

/-! ## Diagnostics -/

section

variable {f : RemarkFamily} {c : Char}

lemma extract_separator (hf : f.Plain) (hc : c ∈ separators) (a b : List Char) :
    extract f (a ++ c :: b) = extract f a ++ extract f b := by
  rw [extract, matches?, scan_separator hf hc (Nat.zero_le _), List.filterMap_append]
  rfl

/-- There is no remark without a colon. -/
lemma scan_of_no_colon {cs : List Char} (hcs : ':' ∉ cs) (n : Nat) (back : List Char) :
    scan f n back cs = [] := by
  induction cs generalizing n back with
  | nil => rfl
  | cons x cs ih =>
    obtain ⟨hx, hcs⟩ := List.ne_and_not_mem_of_not_mem_cons hcs
    cases n with
    | succ n => exact ih hcs n []
    | zero => simpa [scan, Ne.symm hx] using ih hcs 0 _

lemma extract_of_no_colon {cs : List Char} (hcs : ':' ∉ cs) : extract f cs = [] := by
  rw [extract, matches?, scan_of_no_colon hcs, List.filterMap_nil]

/-- Lines are independent of each other. -/
lemma extract_lines (hf : f.Plain) (cs : List Char) :
    extract f cs = (lines cs).flatMap (extract f) := by
  have hall : ∀ ls cs, lines cs = ls → extract f cs = ls.flatMap (extract f) := by
    intro ls
    induction ls with
    | nil =>
      intro cs hcs
      rw [eq_nil_of_lines_eq_nil hcs]
      rfl
    | cons l ls ih =>
      intro cs hcs
      rw [List.flatMap_cons]
      rcases eq_append_of_lines_eq_cons hcs with ⟨rfl, rfl⟩ | ⟨rest, hrest, rfl | rfl⟩
      · exact (List.append_nil _).symm
      · rw [extract_separator hf (by decide), ih rest hrest]
      · -- nothing stands between the two characters of the ending
        have hnil : extract f ('\n' :: rest) = extract f rest :=
          extract_separator hf (by decide) [] rest
        rw [extract_separator hf (by decide), hnil, ih rest hrest]
  exact hall _ cs rfl

/-- What is in front of a project's number does not matter, and neither does the number. -/
lemma extract_project (hf : f.Plain) {number : List Char}
    (hnumber : ∀ d ∈ number, isDecimal d = true) (rest : List Char) :
    extract f (number ++ '>' :: rest) = extract f rest := by
  have hcolon : ':' ∉ number := fun h => absurd (hnumber ':' h) (by decide)
  rw [extract_separator hf (by decide), extract_of_no_colon hcolon, List.nil_append]

/-- Extraction is local.  The two families have no separators in their words, and for every family
that has none the diagnostics of a text in which a separator stands are those in front of it,
followed by those behind it.  So the diagnostics of a text are those of its lines, and the number
of a project in front of a line does not change what is found in it. -/
theorem extract_separated :
    (RemarkFamily.loopNotVectorized.Plain ∧ RemarkFamily.loopNotParallelized.Plain) ∧
    ∀ f, f.Plain →
      (∀ c ∈ separators, ∀ a b, extract f (a ++ c :: b) = extract f a ++ extract f b) ∧
      (∀ cs, extract f cs = (lines cs).flatMap (extract f)) ∧
      ∀ number rest, (∀ d ∈ number, isDecimal d = true) →
        extract f (number ++ '>' :: rest) = extract f rest :=
  ⟨by decide, fun _ hf => ⟨fun _ hc => extract_separator hf hc, extract_lines hf,
    fun _ rest hnumber => extract_project hf hnumber rest⟩⟩

end

end Remark

end BuildLens
