/-
Stripping a file twice.

Stripping ends every line that it keeps with a line feed.  A line that ends in a carriage return
loses it that way, for in the copy it belongs to the end of the line (`lines_unlines`).  So the
lines of the copy are those that were kept, each without one carriage return at its end, and

* the copy has an empty line if and only if a line of the file was a single carriage return;
* stripping the copy changes something if and only if a line of the file ends in a carriage return,
  that is if the file ends in one or contains two in front of a line feed (`stripped_again_iff`).
-/
import BuildLens.Proofs.Text.Decoding
import BuildLens.Proofs.Text.Line
import BuildLens.Session.Artifact

namespace BuildLens.Text

section

variable {l cs : List Char} {ls : List (List Char)}

/-! ## Lines that are written again -/

lemma withoutReturn_eq_nil_iff : withoutReturn l = [] ↔ l = [] ∨ l = ['\r'] := by
  constructor
  · intro h
    rcases last_return_cases l with ⟨l', rfl⟩ | hlast
    · rw [withoutReturn_append_return] at h
      exact .inr (by rw [h, List.nil_append])
    · exact .inl (withoutReturn_of_getLast? hlast ▸ h)
  · rintro (rfl | rfl) <;> rfl

/-- Lines that are written and read again lose a carriage return at their ends. -/
lemma lines_unlines (hls : ∀ l ∈ ls, '\n' ∉ l) : lines (unlines ls) = ls.map withoutReturn := by
  induction ls with
  | nil => rfl
  | cons l ls ih =>
    obtain ⟨hl, hrest⟩ := List.forall_mem_cons.mp hls
    rw [unlines_cons, lines_append_feed hl, ih hrest, List.map_cons]

/-- The lines of a text that is stripped. -/
lemma lines_withoutEmptyLines (cs : List Char) :
    lines (withoutEmptyLines cs) =
      ((lines cs).filter fun l => !l.isEmpty).map withoutReturn :=
  lines_unlines fun _ hl => newline_not_mem_of_mem_lines (List.mem_of_mem_filter hl)

lemma nil_mem_lines_withoutEmptyLines :
    [] ∈ lines (withoutEmptyLines cs) ↔ ['\r'] ∈ lines cs := by
  rw [lines_withoutEmptyLines, List.mem_map]
  constructor
  · rintro ⟨l, hl, hnil⟩
    obtain ⟨hmem, hne⟩ := List.mem_filter.mp hl
    rcases withoutReturn_eq_nil_iff.mp hnil with rfl | rfl
    · exact absurd hne (by simp)
    · exact hmem
  · exact fun h => ⟨['\r'], List.mem_filter.mpr ⟨h, rfl⟩, rfl⟩

/-! ## Stripping again -/

lemma count_withoutReturn (l : List Char) :
    (withoutReturn l).count '\r' + (if l.getLast? = some '\r' then 1 else 0) = l.count '\r' := by
  rcases last_return_cases l with ⟨l', rfl⟩ | hlast
  · rw [withoutReturn_append_return, if_pos List.getLast?_concat, List.count_append]
    rfl
  · rw [withoutReturn_of_getLast? hlast, if_neg hlast, Nat.add_zero]

lemma count_return_unlines_cons (l : List Char) (ls : List (List Char)) :
    (unlines (l :: ls)).count '\r' = l.count '\r' + (unlines ls).count '\r' := by
  rw [unlines_cons, List.count_append, List.count_cons]
  rfl

/-- Stripping lines that were written takes a carriage return from each that ends in one. -/
lemma count_return_unlines (ls : List (List Char)) :
    (unlines ((ls.map withoutReturn).filter fun l => !l.isEmpty)).count '\r' +
        ls.countP (·.getLast? = some '\r') = (unlines ls).count '\r' := by
  induction ls with
  | nil => rfl
  | cons l ls ih =>
    have hl := count_withoutReturn l
    rw [List.map_cons, List.filter_cons, List.countP_cons, count_return_unlines_cons]
    simp only [decide_eq_true_eq]
    cases hempty : (withoutReturn l).isEmpty with
    | true =>
      rw [List.isEmpty_iff.mp hempty, List.count_nil] at hl
      rw [if_neg (by simp)]
      omega
    | false =>
      rw [if_pos (by simp), count_return_unlines_cons]
      omega

/-- A text that is stripped stays as it is if it is stripped again, unless it had a line that ended
in a carriage return. -/
theorem withoutEmptyLines_again_iff (cs : List Char) :
    withoutEmptyLines (withoutEmptyLines cs) = withoutEmptyLines cs ↔
      ∀ l ∈ lines cs, l.getLast? ≠ some '\r' := by
  have hagain : withoutEmptyLines (withoutEmptyLines cs) =
      unlines ((((lines cs).filter fun l => !l.isEmpty).map withoutReturn).filter
        fun l => !l.isEmpty) := by
    rw [withoutEmptyLines, lines_withoutEmptyLines]
  constructor
  · intro h l hl hlast
    have hcount := count_return_unlines ((lines cs).filter fun l => !l.isEmpty)
    rw [← hagain, h, withoutEmptyLines, Nat.add_eq_left, List.countP_eq_zero] at hcount
    refine hcount l (List.mem_filter.mpr ⟨hl, ?_⟩) (by simpa using hlast)
    cases l with
    | nil => exact absurd hlast (by simp)
    | cons => rfl
  · intro h
    have hsame : ((lines cs).filter fun l => !l.isEmpty).map withoutReturn =
        (lines cs).filter fun l => !l.isEmpty :=
      (List.map_congr_left fun l hl =>
        withoutReturn_of_getLast? (h l (List.mem_of_mem_filter hl))).trans (List.map_id _)
    rw [hagain, hsame, List.filter_filter]
    simp [withoutEmptyLines]

/-! ## Carriage returns at the ends of lines -/

/-- The first line is empty if the text starts with an ending. -/
lemma eq_nil_iff_of_lines_eq_cons {ls : List (List Char)}
    (hcs : lines cs = l :: ls) : l = [] ↔ ['\n'] <+: cs ∨ ['\r', '\n'] <+: cs := by
  constructor
  · rintro rfl
    rcases eq_append_of_lines_eq_cons hcs with ⟨rfl, -⟩ | ⟨rest, -, rfl | rfl⟩
    · exact absurd hcs (by simp)
    · exact .inl ⟨rest, rfl⟩
    · exact .inr ⟨rest, rfl⟩
  · rintro (⟨rest, rfl⟩ | ⟨rest, rfl⟩)
    · exact (List.cons.inj ((lines_newline rest).symm.trans hcs)).1.symm
    · have hline : lines ('\r' :: '\n' :: rest) = [] :: lines rest :=
        lines_append_return List.not_mem_nil rest
      exact (List.cons.inj (hline.symm.trans hcs)).1.symm

/-- A carriage return stands at the end of a line if the text ends there or an ending follows. -/
lemma exists_mem_lines_cons (c : Char) (cs : List Char) :
    (∃ l ∈ lines (c :: cs), l.getLast? = some '\r') ↔
      (c = '\r' ∧ (cs = [] ∨ ['\r', '\n'] <+: cs)) ∨ ∃ l ∈ lines cs, l.getLast? = some '\r' := by
  rw [lines]
  split_ifs with hc hreturn
  · subst hc
    simp
  · obtain ⟨rfl, hfeed⟩ := hreturn
    obtain ⟨rest, rfl⟩ := List.head?_eq_some_iff.mp hfeed
    simp
  · cases hcs : lines cs with
    | nil =>
      obtain rfl := eq_nil_of_lines_eq_nil hcs
      simp
    | cons l ls =>
      have hne : cs ≠ [] := by
        rintro rfl
        exact absurd hcs (by simp)
      have hend := eq_nil_iff_of_lines_eq_cons hcs
      simp only [List.mem_cons, exists_eq_or_imp, hne, false_or]
      cases l with
      | nil =>
        have hstart : c = '\r' → ['\r', '\n'] <+: cs := by
          rintro rfl
          refine (hend.mp rfl).resolve_left ?_
          rintro ⟨rest, rfl⟩
          exact hreturn ⟨rfl, rfl⟩
        simp only [List.getLast?_singleton, Option.some.injEq, List.getLast?_nil, reduceCtorEq,
          false_or, and_iff_left_of_imp hstart]
      | cons d l =>
        have hstart : ¬ ['\r', '\n'] <+: cs := fun h => absurd (hend.mpr (.inr h)) (by simp)
        simp only [List.getLast?_cons_cons, hstart, and_false, false_or]

/-- A line of a text ends in a carriage return if and only if the text does, or two carriage returns
stand in front of a line feed. -/
theorem exists_mem_lines_iff (cs : List Char) :
    (∃ l ∈ lines cs, l.getLast? = some '\r') ↔
      ['\r'] <:+ cs ∨ ['\r', '\r', '\n'] <:+: cs := by
  induction cs with
  | nil => simp
  | cons c cs ih =>
    rw [exists_mem_lines_cons, ih, List.infix_cons_iff, List.suffix_cons_iff, List.cons_prefix_cons,
      List.cons.injEq, eq_comm (a := []), eq_comm (a := '\r')]
    tauto

end

end BuildLens.Text

namespace BuildLens

open BuildLens.Text
open BuildLens.Text.Utf8

/-! ## Stripping a copy -/

/-- The lines of a stripped copy are those of the file that are not empty, each without one carriage
return at its end.  So the copy has an empty line if and only if the file has a line that is a
single carriage return; and it stays as it is if it is stripped again, unless the file ends in a
carriage return or contains two of them in front of a line feed. -/
theorem stripped_again_iff (content : Bytes) :
    let raw := lines (decode content)
    let copy := lines (decode (strippedBytes content))
    copy = (raw.filter fun l => !l.isEmpty).map withoutReturn ∧
      ([] ∈ copy ↔ ['\r'] ∈ raw) ∧
      (strippedBytes (strippedBytes content) = strippedBytes content ↔
        ¬ [0x0D] <:+ content ∧ ¬ [0x0D, 0x0D, 0x0A] <:+: content) := by
  simp only [strippedBytes, decode_encode]
  refine ⟨lines_withoutEmptyLines _, nil_mem_lines_withoutEmptyLines, ?_⟩
  have hreturn : encode ['\r'] <:+ content ↔ ['\r'] <:+ decode content :=
    encode_suffix_iff (by simp) (by decide)
  have hreturns : encode ['\r', '\r', '\n'] <:+: content ↔
      ['\r', '\r', '\n'] <:+: decode content :=
    encode_infix_iff (by simp) (by decide)
  have hlines := exists_mem_lines_iff (decode content)
  rw [← hreturn, ← hreturns, ← not_iff_not, not_or] at hlines
  push Not at hlines
  refine Iff.trans ?_ ((withoutEmptyLines_again_iff _).trans hlines)
  exact ⟨fun h => by simpa using congrArg decode h, fun h => by rw [h]⟩

/-- A line of two carriage returns and a line feed becomes an empty line of the copy, and stripping
the copy takes that one out. -/
theorem stripped_copy_with_empty_line :
    let content := bytesOf "int x;\n\r\r\nint y;\n"
    [] ∈ lines (decode (strippedBytes content)) ∧
      strippedBytes content = bytesOf "int x;\n\r\nint y;\n" ∧
      strippedBytes (strippedBytes content) = bytesOf "int x;\nint y;\n" := by
  decide +kernel

end BuildLens
