/-
Anchors in a stripped copy.

A stripped copy has the rows of the file that are not empty, each with a line feed for its end
(`Copied`).  A place of the file and one of the copy are *aligned* if what stands behind the one is
copied to what stands behind the other, and the line feeds in front of them are the same but for
those of the rows that were left out.  As a needle stands in a row, and no needle is empty, the row
in which it is found is there in the copy, and it is found there at the aligned place
(`Copied.rel_find?`).  So the second search starts at aligned places too, and both anchors are found
in the copy if they are found in the file, on the same line but for the empty ones in front of it
(`locate_stripped`).
-/
import BuildLens.Proofs.Rows
import BuildLens.Session.Artifact

namespace BuildLens.Locate

open BuildLens.Text
open BuildLens.Text.Utf8

/-! ## Results that agree -/

section Agreement

variable {α β γ δ : Type} {r : α → β → Prop} {s : γ → δ → Prop} {o : Option α} {o' : Option β}

lemma rel_map {f : α → γ} {g : β → δ} (h : Option.Rel r o o')
    (hfg : ∀ a b, r a b → s (f a) (g b)) : Option.Rel s (o.map f) (o'.map g) := by
  cases h with
  | none => exact .none
  | some hab => exact .some (hfg _ _ hab)

lemma rel_getD {a : α} {b : β} (h : Option.Rel r o o') (hab : r a b) :
    r (o.getD a) (o'.getD b) := by
  cases h with
  | none => exact hab
  | some h => exact h

lemma isSome_eq_of_rel (h : Option.Rel r o o') : o.isSome = o'.isSome := by
  cases h <;> rfl

end Agreement

/-! ## Rows of a file and of its copy -/

/-- Rows of a file and of its copy, by which of them were left out. -/
inductive Copied : List Bool → Bytes → Bytes → Prop
  /-- Nothing is left. -/
  | nil : Copied [] [] []
  /-- What is left is a row without an end, which has one in the copy. -/
  | last (r : Bytes) : 0x0A ∉ r → Copied [false] r (r ++ [0x0A])
  /-- A row was kept, with a line feed for its end. -/
  | kept {omitted : List Bool} {bs bs' : Bytes} (r : Bytes) (e : LineEnd) : 0x0A ∉ r →
      Copied omitted bs bs' →
      Copied (false :: omitted) (r ++ (encode e.text ++ bs)) (r ++ ([0x0A] ++ bs'))
  /-- An empty row was left out. -/
  | empty {omitted : List Bool} {bs bs' : Bytes} (e : LineEnd) : Copied omitted bs bs' →
      Copied (true :: omitted) (encode e.text ++ bs) bs'

/-- A text is copied to the text without its empty lines. -/
lemma copied_withoutEmptyLines (cs : List Char) :
    Copied ((lines cs).map List.isEmpty) (encode cs) (encode (withoutEmptyLines cs)) := by
  have hfeed : encode ['\n'] = [0x0A] := rfl
  induction cs using lines_induction with
  | nil => exact .nil
  | last l hl hne =>
    have hcopy : withoutEmptyLines l = l ++ ['\n'] := by
      simp [withoutEmptyLines, lines_of_not_mem hl hne, unlines_cons, hne]
    rw [lines_of_not_mem hl hne, hcopy, encode_append, hfeed, List.map_singleton,
      List.isEmpty_eq_false_iff.mpr hne]
    exact .last _ fun h => hl (newline_mem_encode.mp h)
  | row l e rest hl hlines ih =>
    rw [hlines, List.map_cons, encode_append, encode_append]
    cases hempty : l.isEmpty with
    | true =>
      obtain rfl := List.isEmpty_iff.mp hempty
      have hcopy : withoutEmptyLines ([] ++ (e.text ++ rest)) = withoutEmptyLines rest := by
        rw [withoutEmptyLines, hlines]
        rfl
      rw [hcopy]
      exact .empty e ih
    | false =>
      have hcopy : withoutEmptyLines (l ++ (e.text ++ rest)) =
          l ++ (['\n'] ++ withoutEmptyLines rest) := by
        simp [withoutEmptyLines, hlines, hempty, unlines_cons]
      rw [hcopy, encode_append, encode_append, hfeed]
      exact .kept _ e (fun h => hl (newline_mem_encode.mp h)) ih

/-! ## Aligned places -/

/-- A place of a file and one of its copy, with the same rows behind them and in front of them. -/
structure Aligned (omitted : List Bool) (bs bs' : Bytes) (place place' : Nat) : Prop where
  line : (bs'.take place').count 0x0A + (omitted.take ((bs.take place).count 0x0A)).count true =
    (bs.take place).count 0x0A
  rest : Copied (omitted.drop ((bs.take place).count 0x0A)) (bs.drop place) (bs'.drop place')

section

variable {omitted : List Bool} {bs bs' : Bytes}

lemma Copied.start (h : Copied omitted bs bs') : Aligned omitted bs bs' 0 0 :=
  ⟨rfl, h⟩

lemma Aligned.trans {p p' q q' : Nat} (h : Aligned omitted bs bs' p p')
    (hq : Aligned (omitted.drop ((bs.take p).count 0x0A)) (bs.drop p) (bs'.drop p') q q') :
    Aligned omitted bs bs' (p + q) (p' + q') where
  line := by
    have hline := h.line
    have hrest := hq.line
    rw [List.take_add, List.take_add, List.count_append, List.count_append, List.take_add,
      List.count_append]
    omega
  rest := by
    have hrest := hq.rest
    rwa [List.drop_drop, List.drop_drop, List.drop_drop, ← List.count_append, ← List.take_add]
      at hrest

/-- A place within a row that was kept is aligned with itself. -/
lemma Aligned.of_row {r x x' : Bytes} {place : Nat} (hr : 0x0A ∉ r) (hplace : place ≤ r.length)
    (h : ∀ r' : Bytes, 0x0A ∉ r' → Copied omitted (r' ++ x) (r' ++ x')) :
    Aligned omitted (r ++ x) (r ++ x') place place := by
  have hfront : (r.take place).count 0x0A = 0 :=
    List.count_eq_zero.mpr fun hmem => hr (List.mem_of_mem_take hmem)
  constructor
  · rw [List.take_append_of_le_length hplace, List.take_append_of_le_length hplace, hfront]
    rfl
  · rw [List.take_append_of_le_length hplace, hfront, List.drop_append_of_le_length hplace,
      List.drop_append_of_le_length hplace]
    exact h _ fun hmem => hr (List.mem_of_mem_drop hmem)

/-- Places behind a row are aligned if they are aligned in what follows. -/
lemma Aligned.behind {place place' : Nat} (h : Aligned omitted bs bs' place place')
    (u u' : Bytes) (leftOut : Bool) (hu : u.count 0x0A = 1)
    (hu' : u'.count 0x0A + [leftOut].count true = 1) :
    Aligned (leftOut :: omitted) (u ++ bs) (u' ++ bs') (place + u.length) (place' + u'.length) := by
  have hcount : ((u ++ bs).take (u.length + place)).count 0x0A =
      (bs.take place).count 0x0A + 1 := by
    rw [List.take_length_add_append, List.count_append, hu, Nat.add_comm]
  rw [Nat.add_comm place, Nat.add_comm place']
  constructor
  · have hline := h.line
    rw [hcount, List.take_length_add_append, List.count_append, List.take_succ_cons,
      ← List.singleton_append, List.count_append]
    omega
  · rw [hcount, List.drop_succ_cons, List.drop_length_add_append, List.drop_length_add_append]
    exact h.rest

/-! ## The search in a copy -/

/-- A needle is found in the copy if it is found in the file, and all its places are aligned. -/
theorem Copied.rel_find? {needle : Bytes} (h : Copied omitted bs bs') (hneedle : InRow needle) :
    Option.Rel (fun p p' => ∀ i ≤ needle.length, Aligned omitted bs bs' (p + i) (p' + i))
      (find? needle bs) (find? needle bs') := by
  have hfeed (r bs' : Bytes) : find? needle (r ++ ([0x0A] ++ bs')) =
      (find? needle r).or ((find? needle bs').map (· + (r ++ [0x0A]).length)) :=
    hneedle.find?_row .lineFeed r bs'
  have hnil : find? needle [] = none := by simp [find?, hneedle.ne_nil]
  induction h with
  | nil =>
    rw [hnil]
    exact .none
  | last r hr =>
    have hcopy := hfeed r []
    rw [hnil, Option.map_none, Option.or_none, List.append_nil] at hcopy
    rw [hcopy]
    cases hfind : find? needle r with
    | none => exact .none
    | some p =>
      refine .some fun i hi => ?_
      have hle := le_length_of_find? hfind
      have hplace : Aligned [false] (r ++ []) (r ++ [0x0A]) (p + i) (p + i) :=
        .of_row hr (by omega) fun r' hr' => (List.append_nil r').symm ▸ .last r' hr'
      rwa [List.append_nil] at hplace
  | kept r e hr h ih =>
    rw [hneedle.find?_row, hfeed]
    cases hfind : find? needle r with
    | some p =>
      refine .some fun i hi => ?_
      have hle := le_length_of_find? hfind
      exact .of_row hr (by omega) fun r' hr' => h.kept r' e hr'
    | none =>
      -- then it is found in what follows, or nowhere
      refine rel_map ih fun p p' hp i hi => ?_
      have hplace := (hp i hi).behind (r ++ encode e.text) (r ++ [0x0A]) false
        (count_newline_row hr e) (count_newline_row hr .lineFeed)
      rwa [List.append_assoc, List.append_assoc, Nat.add_right_comm, Nat.add_right_comm p']
        at hplace
  | @empty omitted bs bs' e h ih =>
    rw [hneedle.find?_end, ← Option.map_id_apply (x := find? needle bs')]
    refine rel_map ih fun p p' hp i hi => ?_
    rw [Nat.add_right_comm]
    exact (hp i hi).behind (encode e.text) [] true (count_newline_row List.not_mem_nil e) rfl

end

/-! ## The anchors in a copy -/

section Anchors

variable {mode : Mode} {signature : List Char} {line : Option (List Char)} {omitted : List Bool}
  {bs bs' : Bytes}

lemma Copied.rel_functionAnchor (h : Copied omitted bs bs')
    (hneedle : ∀ n ∈ functionNeedle mode signature, InRow (encode n)) :
    Option.Rel (fun p p' => Aligned omitted bs bs' p.1 p'.1 ∧ Aligned omitted bs bs' p.2 p'.2)
      (functionAnchor mode bs signature) (functionAnchor mode bs' signature) := by
  cases hn : functionNeedle mode signature with
  | none =>
    simp only [functionAnchor, hn]
    exact .none
  | some n =>
    simp only [functionAnchor, hn]
    exact rel_map (h.rel_find? (hneedle n hn)) fun p p' hp =>
      ⟨hp 0 (Nat.zero_le _), hp _ (Nat.le_refl _)⟩

lemma Aligned.rel_lineAnchor {start start' : Nat} (h : Aligned omitted bs bs' start start')
    (hneedle : ∀ n ∈ lineNeedle line, InRow (encode n)) :
    Option.Rel (Aligned omitted bs bs') (lineAnchor bs start line)
      (lineAnchor bs' start' line) := by
  cases hn : lineNeedle line with
  | none =>
    simp only [lineAnchor, hn]
    exact .none
  | some n =>
    simp only [lineAnchor, hn]
    exact rel_map (h.rest.rel_find? (hneedle n hn)) fun p p' hp => h.trans (hp 0 (Nat.zero_le _))

lemma Copied.rel_locate (h : Copied omitted bs bs')
    (hfunction : ∀ n ∈ functionNeedle mode signature, InRow (encode n))
    (hline : ∀ n ∈ lineNeedle line, InRow (encode n)) :
    let raw := locate mode bs signature line
    let copy := locate mode bs' signature line
    copy.functionAnchorFound = raw.functionAnchorFound ∧
      copy.lineAnchorFound = raw.lineAnchorFound ∧
      copy.cursorLine + (omitted.take (raw.cursorLine - 1)).count true = raw.cursorLine := by
  have hplaces := h.rel_functionAnchor hfunction
  have hfronts : Option.Rel (Aligned omitted bs bs') _ _ := rel_map hplaces fun _ _ hp => hp.1
  have hends : Option.Rel (Aligned omitted bs bs') _ _ := rel_map hplaces fun _ _ hp => hp.2
  have hfront := rel_getD hfronts h.start
  have hbehind := rel_getD hends h.start
  have hfound := hbehind.rel_lineAnchor hline
  refine ⟨(isSome_eq_of_rel hplaces).symm, (isSome_eq_of_rel hfound).symm, ?_⟩
  have hcursor := (rel_getD hfound hfront).line
  simp only [locate, lineAt, Nat.add_sub_cancel]
  omega

/-- In a stripped copy the same anchors are found as in the file, and the line of the cursor is the
one in the file less the lines that were left out in front of it. -/
theorem locate_stripped (mode : Mode) (content : Bytes) (signature : List Char)
    (line : Option (List Char)) (hsignature : '\n' ∉ signature)
    (hline : ∀ l ∈ line, '\n' ∉ l) (hcleanSignature : replacement ∉ signature)
    (hcleanLine : ∀ l ∈ line, replacement ∉ l) :
    let raw := locate mode content signature line
    let copy := locate mode (strippedBytes content) signature line
    copy.functionAnchorFound = raw.functionAnchorFound ∧
      copy.lineAnchorFound = raw.lineAnchorFound ∧
      copy.cursorLine + ((lines (decode content)).take (raw.cursorLine - 1)).countP List.isEmpty =
        raw.cursorLine := by
  have hfunction : ∀ n ∈ functionNeedle mode signature, InRow (encode n) := fun n hn =>
    .of_functionNeedle hn fun hmem =>
      ((functionNeedle_chars hn).2 _ hmem).elim hsignature (by decide)
  have hneedle : ∀ n ∈ lineNeedle line, InRow (encode n) := fun n hn =>
    .of_lineNeedle hn fun hmem => by
      obtain ⟨l, hl, hmem⟩ := (lineNeedle_chars hn).2 _ hmem
      exact hline l hl hmem
  have hcopied := (copied_withoutEmptyLines (decode content)).rel_locate hfunction hneedle
  rw [← mend, locate_mend mode content hcleanSignature hcleanLine] at hcopied
  have hcount (k : Nat) : (((lines (decode content)).map List.isEmpty).take k).count true =
      ((lines (decode content)).take k).countP List.isEmpty := by
    simp [← List.map_take, List.count, List.countP_map, Function.comp_def]
  simp only [hcount] at hcopied
  exact hcopied

end Anchors

/-- Preprocessed source with empty lines, a character of a code page and no end of the last line. -/
def sparseSource : Bytes :=
  bytesOf "#line 1 \"a.cpp\"\r\n\r\n\n// caf" ++
    0xE9 :: bytesOf "\nint main()\n\n\x7b\r\n  x = 1;"

/-- The theorem at that source: three empty lines stand in front of the line of the cursor. -/
theorem locate_stripped_of_sparseSource :
    let line := some "x = 1;\r".toList
    let copy := locate .preprocessed (strippedBytes sparseSource) "main".toList line
    locate .preprocessed sparseSource "main".toList line = ⟨true, true, 45, 8⟩ ∧
      copy.functionAnchorFound = true ∧ copy.lineAnchorFound = true ∧ copy.cursorLine = 5 := by
  intro line copy
  have hraw : locate .preprocessed sparseSource "main".toList line = ⟨true, true, 45, 8⟩ := by
    decide +kernel
  have hempty : ((lines (decode sparseSource)).take 7).countP List.isEmpty = 3 := by decide +kernel
  obtain ⟨hfunction, hlineFound, hcursor⟩ := locate_stripped .preprocessed sparseSource
    "main".toList line (by decide) (by decide) (by decide) (by decide)
  rw [hraw] at hfunction hlineFound hcursor
  have hsum : copy.cursorLine + 3 = 8 := by
    rw [← hempty]
    exact hcursor
  exact ⟨hraw, hfunction, hlineFound, Nat.add_right_cancel hsum⟩

end BuildLens.Locate
