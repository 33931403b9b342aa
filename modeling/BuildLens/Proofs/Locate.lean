/-
Places in a file and in its mended copy.

A session looks for anchors in the bytes of a file; the command that looks for them reads the file
as text first, and so looks in the mended copy.  A place is a *seam* if the bytes in front of it and
those behind it are mended apart from each other.  Wherever an anchor is found there is a seam in
front of it and one behind it, and so

* `find?_mend`: the first occurrence in the copy is where the bytes in front of the first one in the
  file are mended to;
* `locate_mend`: in the copy the same anchors are found on the same line, at the place that the
  bytes in front of the place in the file are mended to.

So the command finds the anchors and the line that a session finds (`locate_anchors`), but prints a
place in the copy (`locate_offset`), which lies behind the one in the file as soon as bytes in front
of it are ill-formed and become longer.
-/
import BuildLens.Command.Run
import BuildLens.Proofs.Text.Decoding
import BuildLens.Proofs.Text.Trimming

namespace BuildLens.Locate

open BuildLens.Text
open BuildLens.Text.Utf8

/-! ## Literal search -/

section Search

variable {needle bs : Bytes} {p : Nat}

lemma exists_of_find? (h : find? needle bs = some p) :
    ∃ s t, bs = s ++ (needle ++ t) ∧ s.length = p := by
  induction bs generalizing p with
  | nil =>
    by_cases hempty : needle = []
    · subst hempty
      obtain rfl : 0 = p := by simpa [find?] using h
      exact ⟨[], [], rfl, rfl⟩
    · simp [find?, hempty] at h
  | cons b bs ih =>
    by_cases hprefix : needle.isPrefixOf (b :: bs)
    · obtain rfl : 0 = p := by simpa [find?, hprefix] using h
      obtain ⟨t, ht⟩ := List.isPrefixOf_iff_prefix.mp hprefix
      exact ⟨[], t, ht.symm, rfl⟩
    · rw [find?, if_neg hprefix] at h
      obtain ⟨q, hq, rfl⟩ := Option.map_eq_some_iff.mp h
      obtain ⟨s, t, rfl, rfl⟩ := ih hq
      exact ⟨b :: s, t, rfl, rfl⟩

/-- What occurs somewhere is found there or in front of it. -/
lemma find?_append (needle s t : Bytes) :
    ∃ p ≤ s.length, find? needle (s ++ (needle ++ t)) = some p := by
  induction s with
  | nil =>
    refine ⟨0, Nat.le_refl 0, ?_⟩
    rw [List.nil_append]
    cases hbs : needle ++ t with
    | nil =>
      obtain ⟨rfl, rfl⟩ := List.append_eq_nil_iff.mp hbs
      rfl
    | cons b bs =>
      have hprefix : needle.isPrefixOf (b :: bs) := by
        rw [← hbs]
        exact List.isPrefixOf_iff_prefix.mpr (List.prefix_append needle t)
      rw [find?, if_pos hprefix]
  | cons b s ih =>
    rw [List.cons_append]
    by_cases hprefix : needle.isPrefixOf (b :: (s ++ (needle ++ t)))
    · exact ⟨0, Nat.zero_le _, by rw [find?, if_pos hprefix]⟩
    · obtain ⟨p, hp, hfind⟩ := ih
      exact ⟨p + 1, Nat.succ_le_succ hp, by rw [find?, if_neg hprefix, hfind]; rfl⟩

/-- The place that is found is that of the first occurrence. -/
theorem find?_eq_some_iff :
    find? needle bs = some p ↔ ∃ s t, bs = s ++ (needle ++ t) ∧ s.length = p ∧
      ∀ s' t', bs = s' ++ (needle ++ t') → p ≤ s'.length := by
  constructor
  · intro h
    obtain ⟨s, t, hbs, hs⟩ := exists_of_find? h
    refine ⟨s, t, hbs, hs, fun s' t' hbs' => ?_⟩
    obtain ⟨q, hq, hfind⟩ := find?_append needle s' t'
    rw [← hbs', h] at hfind
    rwa [Option.some.inj hfind]
  · rintro ⟨s, t, rfl, rfl, hfirst⟩
    obtain ⟨q, hq, hfind⟩ := find?_append needle s t
    obtain ⟨s', t', hbs, rfl⟩ := exists_of_find? hfind
    rw [hfind, Nat.le_antisymm hq (hfirst s' t' hbs)]

/-- Nothing is found where nothing occurs. -/
theorem find?_eq_none_iff : find? needle bs = none ↔ ∀ s t, bs ≠ s ++ (needle ++ t) := by
  constructor
  · rintro h s t rfl
    obtain ⟨p, -, hfind⟩ := find?_append needle s t
    rw [hfind] at h
    contradiction
  · intro h
    cases hfind : find? needle bs with
    | none => rfl
    | some p =>
      obtain ⟨s, t, hbs, -⟩ := exists_of_find? hfind
      exact absurd hbs (h s t)

end Search

/-! ## Search in a mended copy -/

section Mended

variable {cs : List Char} {bs : Bytes} {p : Nat}

/-- Where a place of some bytes lies in their mended copy. -/
def mendPlace (bs : Bytes) (place : Nat) : Nat :=
  (mend (bs.take place)).length

@[simp] lemma mendPlace_zero (bs : Bytes) : mendPlace bs 0 = 0 := rfl

lemma mendPlace_length (s t : Bytes) : mendPlace (s ++ t) s.length = (mend s).length := by
  rw [mendPlace, List.take_left]

lemma le_mendPlace {place : Nat} (h : place ≤ bs.length) : place ≤ mendPlace bs place := by
  have hmend := length_le_length_mend (bs.take place)
  rwa [List.length_take, Nat.min_eq_left h] at hmend

lemma mendPlace_of_wellFormed {place : Nat} (h : place ≤ bs.length)
    (htext : WellFormed (bs.take place)) : mendPlace bs place = place := by
  rw [mendPlace, mend_eq_self_iff.mpr htext, List.length_take, Nat.min_eq_left h]

/-- In the copy a text without replacements is found where it is found in the file. -/
theorem find?_mend (hcs : cs ≠ []) (hclean : replacement ∉ cs) (bs : Bytes) :
    find? (encode cs) (mend bs) = (find? (encode cs) bs).map (mendPlace bs) := by
  cases hfind : find? (encode cs) bs with
  | none =>
    rw [find?_eq_none_iff] at hfind
    rw [Option.map_none, find?_eq_none_iff]
    intro x y h
    obtain ⟨s, t, hbs, -⟩ := exists_of_mend_eq hcs hclean h
    exact hfind s t hbs
  | some p =>
    obtain ⟨s, t, rfl, rfl, hfirst⟩ := find?_eq_some_iff.mp hfind
    rw [Option.map_some, mendPlace_length, find?_eq_some_iff]
    refine ⟨mend s, mend t, mend_append_encode hcs s t, rfl, fun x y h => ?_⟩
    obtain ⟨s', t', hbs, rfl, -⟩ := exists_of_mend_eq hcs hclean h
    -- an occurrence in the file that does not come first has the first one's seam in front of it
    obtain ⟨w, rfl, hw⟩ : ∃ w, s' = s ++ w ∧ encode cs ++ t = w ++ (encode cs ++ t') := by
      rcases List.append_eq_append_iff.mp hbs with ⟨w, rfl, hw⟩ | ⟨w, rfl, hw⟩
      · exact ⟨w, rfl, hw⟩
      · have hle := hfirst s' t' hbs
        rw [List.length_append] at hle
        obtain rfl : w = [] := List.eq_nil_of_length_eq_zero (by omega)
        exact ⟨[], by simp, by simpa using hw.symm⟩
    have hfresh : Fresh w := (hw ▸ fresh_encode_append hcs t).left
    rw [mend_append hfresh, List.length_append]
    exact Nat.le_add_right _ _

/-- A place that the bytes in front of it and those behind it are mended apart at. -/
def Seam (bs : Bytes) (place : Nat) : Prop :=
  ∀ n, mend (bs.take (place + n)) = mend (bs.take place) ++ mend ((bs.drop place).take n)

namespace Seam

variable {place : Nat}

lemma zero (bs : Bytes) : Seam bs 0 := by
  intro n
  simp

lemma of_fresh (h : Fresh (bs.drop place)) : Seam bs place := by
  intro n
  rw [List.take_add]
  refine mend_append ?_ _
  rw [← List.take_append_drop n (bs.drop place)] at h
  exact h.left

lemma behind_encode (hcs : cs ≠ []) (s t : Bytes) :
    Seam (s ++ (encode cs ++ t)) (s.length + (encode cs).length) := by
  intro n
  have htake : ∀ m, (s ++ (encode cs ++ t)).take (s.length + (encode cs).length + m) =
      s ++ (encode cs ++ t.take m) := by
    intro m
    rw [Nat.add_assoc, List.take_length_add_append, List.take_length_add_append]
  have hdrop : (s ++ (encode cs ++ t)).drop (s.length + (encode cs).length) = t := by
    rw [← List.append_assoc, ← List.length_append, List.drop_left]
  have hzero := htake 0
  rw [Nat.add_zero, List.take_zero] at hzero
  rw [htake n, hdrop, hzero, mend_append_encode hcs, mend_append_encode hcs, mend_nil]
  simp

/-- Wherever a text is found there is a seam in front of it and one behind it. -/
lemma of_find? (hcs : cs ≠ []) (h : find? (encode cs) bs = some p) :
    Seam bs p ∧ Seam bs (p + (encode cs).length) := by
  obtain ⟨s, t, rfl, rfl⟩ := exists_of_find? h
  refine ⟨of_fresh ?_, behind_encode hcs s t⟩
  rw [List.drop_left]
  exact fresh_encode_append hcs t

lemma mendPlace_add (h : Seam bs place) (n : Nat) :
    mendPlace bs (place + n) = mendPlace bs place + mendPlace (bs.drop place) n := by
  rw [mendPlace, h n, List.length_append, mendPlace, mendPlace]

lemma trans {n : Nat} (h : Seam bs place) (hn : Seam (bs.drop place) n) : Seam bs (place + n) := by
  intro m
  rw [Nat.add_assoc, h, hn, h, List.drop_drop, List.append_assoc]

lemma mend_eq (h : Seam bs place) : mend bs = mend (bs.take place) ++ mend (bs.drop place) := by
  have hall := h bs.length
  rwa [List.take_of_length_le (Nat.le_add_left _ _),
    List.take_of_length_le (i := bs.length) (l := bs.drop place) (by simp)] at hall

lemma drop_mend (h : Seam bs place) :
    (mend bs).drop (mendPlace bs place) = mend (bs.drop place) := by
  rw [h.mend_eq, mendPlace, List.drop_left]

/-- A seam lies on the same line of the copy. -/
lemma lineAt_mend (h : Seam bs place) :
    lineAt (mend bs) (mendPlace bs place) = lineAt bs place := by
  rw [lineAt, h.mend_eq, mendPlace, List.take_left, count_mend, lineAt]

end Seam

end Mended

/-! ## Anchors in a mended copy -/

section Anchors

variable {mode : Mode} {signature : List Char} {line : Option (List Char)}

lemma mem_of_mem_normalize {c : Char} {cs : List Char} (h : c ∈ normalize cs) :
    c ∈ cs ∨ c = templateMarker := by
  rw [normalize] at h
  split_ifs at h with hcut
  · exact .inl h
  · rcases List.mem_append.mp h with hname | hmarker
    · exact .inl ((List.takeWhile_sublist _).subset hname)
    · exact .inr (List.mem_singleton.mp hmarker)

/-- What is searched for to find a function is not empty, and its characters are those of the
signature and of the markers. -/
lemma functionNeedle_chars {needle : List Char} (h : functionNeedle mode signature = some needle) :
    needle ≠ [] ∧
      ∀ c ∈ needle, c ∈ signature ∨ c ∈ templateMarker :: (procedureMarker ++ callMarker) := by
  have hchars : ∀ c ∈ normalize (trim signature), c ∈ signature ∨ c = templateMarker :=
    fun c hc => (mem_of_mem_normalize hc).imp_left mem_of_mem_trim
  by_cases hname : normalize (trim signature) = []
  · simp [functionNeedle, hname] at h
  cases mode with
  | assembly =>
    obtain rfl : procedureMarker ++ normalize (trim signature) = needle := by
      simpa [functionNeedle, hname] using h
    exact ⟨by simp [hname], by grind⟩
  | preprocessed =>
    by_cases htemplate : (normalize (trim signature)).getLast? = some templateMarker
    · obtain rfl : normalize (trim signature) = needle := by
        simpa [functionNeedle, hname, htemplate] using h
      exact ⟨hname, by grind⟩
    · obtain rfl : normalize (trim signature) ++ callMarker = needle := by
        simpa [functionNeedle, hname, htemplate] using h
      exact ⟨by simp [hname], by grind⟩

lemma functionNeedle_spec {needle : List Char} (h : functionNeedle mode signature = some needle) :
    needle ≠ [] ∧ (replacement ∉ signature → replacement ∉ needle) := by
  obtain ⟨hne, hchars⟩ := functionNeedle_chars h
  exact ⟨hne, fun hsignature hmem => (hchars _ hmem).elim hsignature (by decide)⟩

/-- The same for a line. -/
lemma lineNeedle_chars {needle : List Char} (h : lineNeedle line = some needle) :
    needle ≠ [] ∧ ∀ c ∈ needle, ∃ l ∈ line, c ∈ l := by
  obtain ⟨htrim, hempty⟩ := Option.filter_eq_some_iff.mp h
  obtain ⟨l, hl, rfl⟩ := Option.map_eq_some_iff.mp htrim
  exact ⟨by simpa using hempty, fun c hc => ⟨l, hl, mem_of_mem_trim hc⟩⟩

lemma lineNeedle_spec {needle : List Char} (h : lineNeedle line = some needle) :
    needle ≠ [] ∧ ((∀ l ∈ line, replacement ∉ l) → replacement ∉ needle) := by
  obtain ⟨hne, hchars⟩ := lineNeedle_chars h
  refine ⟨hne, fun hclean hmem => ?_⟩
  obtain ⟨l, hl, hmem⟩ := hchars _ hmem
  exact hclean l hl hmem

/-- A function is found in the copy where it is found in the file, and both its ends are seams. -/
lemma functionAnchor_mend (mode : Mode) (hclean : replacement ∉ signature) (bs : Bytes) :
    functionAnchor mode (mend bs) signature =
        (functionAnchor mode bs signature).map (Prod.map (mendPlace bs) (mendPlace bs)) ∧
      ∀ place ∈ functionAnchor mode bs signature, Seam bs place.1 ∧ Seam bs place.2 := by
  cases hneedle : functionNeedle mode signature with
  | none => simp [functionAnchor, hneedle]
  | some needle =>
    obtain ⟨hne, hreplacement⟩ := functionNeedle_spec hneedle
    simp only [functionAnchor, hneedle, find?_mend hne (hreplacement hclean)]
    cases hfind : find? (encode needle) bs with
    | none => simp
    | some p =>
      obtain ⟨hfront, hbehind⟩ := Seam.of_find? hne hfind
      have hend : mendPlace bs (p + (encode needle).length) =
          mendPlace bs p + (encode needle).length := by
        obtain ⟨s, t, rfl, rfl⟩ := exists_of_find? hfind
        have hneedle := mend_encode_append needle []
        rw [List.append_nil, mend_nil, List.append_nil] at hneedle
        rw [hfront.mendPlace_add, List.drop_left, mendPlace_length (encode needle), hneedle]
      simp [hend, hfront, hbehind]

/-- A line that is looked for behind a seam is found in the copy where it is found in the file. -/
lemma lineAnchor_mend {bs : Bytes} {start : Nat} (hstart : Seam bs start)
    (hclean : ∀ l ∈ line, replacement ∉ l) :
    lineAnchor (mend bs) (mendPlace bs start) line =
        (lineAnchor bs start line).map (mendPlace bs) ∧
      ∀ place ∈ lineAnchor bs start line, Seam bs place := by
  cases hneedle : lineNeedle line with
  | none => simp [lineAnchor, hneedle]
  | some needle =>
    obtain ⟨hne, hreplacement⟩ := lineNeedle_spec hneedle
    simp only [lineAnchor, hneedle, hstart.drop_mend, find?_mend hne (hreplacement hclean)]
    cases hfind : find? (encode needle) (bs.drop start) with
    | none => simp
    | some p =>
      have hseam := hstart.trans (Seam.of_find? hne hfind).1
      simp [hstart.mendPlace_add, hseam]

lemma le_length_of_find? {needle bs : Bytes} {p : Nat} (h : find? needle bs = some p) :
    p + needle.length ≤ bs.length := by
  obtain ⟨s, t, rfl, rfl⟩ := exists_of_find? h
  simp only [List.length_append]
  omega

lemma functionAnchor_le {bs : Bytes} {place : Nat × Nat}
    (h : functionAnchor mode bs signature = some place) : place.1 ≤ bs.length := by
  cases hneedle : functionNeedle mode signature with
  | none => simp [functionAnchor, hneedle] at h
  | some needle =>
    simp only [functionAnchor, hneedle] at h
    obtain ⟨p, hfind, rfl⟩ := Option.map_eq_some_iff.mp h
    exact Nat.le_trans (Nat.le_add_right _ _) (le_length_of_find? hfind)

lemma lineAnchor_le {bs : Bytes} {start place : Nat} (h : lineAnchor bs start line = some place) :
    place ≤ bs.length := by
  cases hneedle : lineNeedle line with
  | none => simp [lineAnchor, hneedle] at h
  | some needle =>
    simp only [lineAnchor, hneedle] at h
    obtain ⟨p, hfind, rfl⟩ := Option.map_eq_some_iff.mp h
    have hle := le_length_of_find? hfind
    have hpos := List.length_pos_of_ne_nil (encode_ne_nil (lineNeedle_spec hneedle).1)
    rw [List.length_drop] at hle
    omega

/-- The place that is found lies in the file. -/
lemma locate_le_length (mode : Mode) (bs : Bytes) (signature : List Char)
    (line : Option (List Char)) : (locate mode bs signature line).cursorOffset ≤ bs.length := by
  simp only [locate]
  cases hline : lineAnchor bs (((functionAnchor mode bs signature).map Prod.snd).getD 0) line with
  | some place => exact lineAnchor_le hline
  | none =>
    cases hplace : functionAnchor mode bs signature with
    | some place => exact functionAnchor_le hplace
    | none => exact Nat.zero_le _

/-- In the mended copy of a file the same anchors are found on the same line, at the place that the
bytes in front of the place in the file are mended to. -/
theorem locate_mend (mode : Mode) (bs : Bytes) (hsignature : replacement ∉ signature)
    (hline : ∀ l ∈ line, replacement ∉ l) :
    locate mode (mend bs) signature line =
      { locate mode bs signature line with
        cursorOffset := mendPlace bs (locate mode bs signature line).cursorOffset } := by
  obtain ⟨hfunction, hseams⟩ := functionAnchor_mend mode hsignature bs
  simp only [locate, hfunction]
  cases hplace : functionAnchor mode bs signature with
  | none =>
    obtain ⟨hbehind, hseam⟩ := lineAnchor_mend (Seam.zero bs) hline
    rw [mendPlace_zero] at hbehind
    simp only [Option.map_none, Option.getD_none, hbehind]
    cases hfound : lineAnchor bs 0 line with
    | none => simp [lineAt]
    | some o => simp [(hseam o hfound).lineAt_mend]
  | some place =>
    obtain ⟨hfront, hend⟩ := hseams place hplace
    obtain ⟨hbehind, hseam⟩ := lineAnchor_mend hend hline
    simp only [Option.map_some, Option.getD_some, Prod.map_snd, Prod.map_fst, hbehind]
    cases hfound : lineAnchor bs place.2 line with
    | none => simp [hfront.lineAt_mend]
    | some o => simp [(hseam o hfound).lineAt_mend]

end Anchors

end BuildLens.Locate

namespace BuildLens.Workplace

open BuildLens.Text
open BuildLens.Text.Utf8
open BuildLens.Locate (mendPlace)

/-! ## What the command reports -/

variable {p : Workplace} {artifact : String} {content : Bytes}

lemma locate_eq (hread : p.files.read artifact = .ok content) (mode : Mode)
    (function line : Option String) :
    p.locate artifact mode function line =
      .ok (Locate.locate mode (mend content) (function.getD "").toList
        (line.map String.toList)) := by
  rw [locate, readText, hread]
  rfl

section Clean

variable {function line : Option String}

lemma clean_function (h : ∀ f ∈ function, replacement ∉ f.toList) :
    replacement ∉ (function.getD "").toList := by
  cases function with
  | none => decide
  | some f => exact h f rfl

lemma clean_line (h : ∀ l ∈ line, replacement ∉ l.toList) :
    ∀ l ∈ line.map String.toList, replacement ∉ l := by
  intro l hl
  obtain ⟨l, rfl, rfl⟩ := Option.map_eq_some_iff.mp hl
  exact h l rfl

end Clean

/-- The command and a session find the same anchors on the same line of a file, whatever bytes it
contains. -/
theorem locate_anchors (hread : p.files.read artifact = .ok content) (mode : Mode)
    (function line : Option String) (hfunction : ∀ f ∈ function, replacement ∉ f.toList)
    (hline : ∀ l ∈ line, replacement ∉ l.toList) :
    ∃ l, p.locate artifact mode function line = .ok l ∧
      let found :=
        Locate.locate mode content (function.getD "").toList (line.map String.toList)
      l.functionAnchorFound = found.functionAnchorFound ∧
        l.lineAnchorFound = found.lineAnchorFound ∧ l.cursorLine = found.cursorLine := by
  refine ⟨_, locate_eq hread mode function line, ?_⟩
  rw [Locate.locate_mend mode content (clean_function hfunction) (clean_line hline)]
  exact ⟨rfl, rfl, rfl⟩

/-- A listing with a source line in an older encoding: its `E9` is no UTF-8. -/
def legacyListing : Bytes :=
  bytesOf "; 3 : // caf" ++
    0xE9 :: bytesOf "\n?f@@YAXXZ PROC ; f, COMDAT\n; 4 : x = compute(y);\n"

/-- A place with the listing. -/
def legacy : Workplace where
  machine := ⟨fun _ => none, fun _ _ _ => .error (.os .notFound)⟩
  files := { root := .directory [("f.asm", .file { content := legacyListing })] }
  now := .ofClock 0 0
  session := "sess-0"

/-- In the listing both anchors are found. -/
theorem locate_anchors_of_legacyListing :
    legacy.files.read "f.asm" = .ok legacyListing ∧
      ∃ l, legacy.locate "f.asm" .assembly (some "f") (some "x = compute(y);") = .ok l ∧
        l.functionAnchorFound = true ∧ l.lineAnchorFound = true ∧ l.cursorLine = 3 := by
  have hread : legacy.files.read "f.asm" = .ok legacyListing := by decide +kernel
  obtain ⟨l, hl, hanchors⟩ := locate_anchors hread .assembly (some "f")
    (some "x = compute(y);") (by rintro f ⟨⟩; decide) (by rintro l ⟨⟩; decide)
  have hfound : Locate.locate .assembly legacyListing "f".toList (some "x = compute(y);".toList) =
      ⟨true, true, 47, 3⟩ := by
    decide +kernel
  simp only [Option.getD_some, Option.map_some, hfound] at hanchors
  exact ⟨hread, l, hl, hanchors⟩

/-- The command reports a place in the mended copy of a file.  It is the place that a session
reports if the file is text, or at least what stands in front of the place is; otherwise it may lie
behind that place, as many bytes as those in front become more. -/
theorem locate_offset (hread : p.files.read artifact = .ok content) (mode : Mode)
    (function line : Option String) :
    ∃ l, p.locate artifact mode function line = .ok l ∧
      l = Locate.locate mode (mend content) (function.getD "").toList (line.map String.toList) ∧
      let found :=
        Locate.locate mode content (function.getD "").toList (line.map String.toList)
      (WellFormed content → l = found) ∧
        ((∀ f ∈ function, replacement ∉ f.toList) → (∀ l ∈ line, replacement ∉ l.toList) →
          l.cursorOffset = (mend (content.take found.cursorOffset)).length ∧
            found.cursorOffset ≤ l.cursorOffset ∧
            (WellFormed (content.take found.cursorOffset) →
              l.cursorOffset = found.cursorOffset)) := by
  refine ⟨_, locate_eq hread mode function line, rfl, fun htext => ?_, fun hfunction hline => ?_⟩
  · rw [mend_eq_self_iff.mpr htext]
  have hle := Locate.locate_le_length mode content (function.getD "").toList
    (line.map String.toList)
  rw [Locate.locate_mend mode content (clean_function hfunction) (clean_line hline)]
  exact ⟨rfl, Locate.le_mendPlace hle, Locate.mendPlace_of_wellFormed hle⟩

/-- The report on the listing is that a session gives, but for the place: the `E9` in front of it
has become the three bytes of a replacement. -/
theorem locate_behind_legacy_byte :
    legacy.files.read "f.asm" = .ok legacyListing ∧
      Locate.locate .assembly legacyListing "f".toList (some "x = compute(y);".toList) =
        ⟨true, true, 47, 3⟩ ∧
      legacy.locate "f.asm" .assembly (some "f") (some "x = compute(y);") =
        .ok ⟨true, true, 49, 3⟩ := by
  decide +kernel

/-- The theorem at the listing. -/
theorem locate_offset_of_legacyListing :
    legacy.files.read "f.asm" = .ok legacyListing ∧
      ∃ l, legacy.locate "f.asm" .assembly (some "f") none = .ok l ∧
        l.cursorOffset = (mend (legacyListing.take 24)).length := by
  have hread : legacy.files.read "f.asm" = .ok legacyListing := by decide +kernel
  obtain ⟨l, hl, -, -, hoffset⟩ := locate_offset hread .assembly (some "f") none
  obtain ⟨hplace, -⟩ := hoffset (by rintro f ⟨⟩; decide) (by rintro l ⟨⟩)
  have hfound : (Locate.locate .assembly legacyListing "f".toList none).cursorOffset = 24 := by
    decide +kernel
  exact ⟨hread, l, hl, hfound ▸ hplace⟩

end BuildLens.Workplace
