/-
Trimming.

A text is its trimmed form with white space around it (`exists_eq_trim`), and the trimmed form
neither starts nor ends with white space, so trimming it again changes nothing (`trim_trim`).
-/
import Mathlib.Data.List.DropRight
import Mathlib.Data.List.TakeWhile
import Mathlib.Tactic.Common
import BuildLens.Text.Blank

namespace BuildLens.Text

variable {cs : List Char}

/-- What is trimmed off is white space. -/
lemma exists_eq_trim (cs : List Char) :
    ∃ a b, cs = a ++ (trim cs ++ b) ∧ (∀ c ∈ a, isWhite c = true) ∧
      ∀ c ∈ b, isWhite c = true := by
  refine ⟨cs.takeWhile isWhite, ((trimStart isWhite cs).reverse.takeWhile isWhite).reverse, ?_,
    fun c hc => List.mem_takeWhile_imp hc,
    fun c hc => List.mem_takeWhile_imp (List.mem_reverse.mp hc)⟩
  have hend : trimStart isWhite cs = trim cs ++
      ((trimStart isWhite cs).reverse.takeWhile isWhite).reverse := by
    rw [trim, trimEnd, ← List.reverse_append, List.takeWhile_append_dropWhile,
      List.reverse_reverse]
  rw [← hend, trimStart, List.takeWhile_append_dropWhile]

lemma mem_of_mem_trim {c : Char} (h : c ∈ trim cs) : c ∈ cs := by
  have hend := (List.dropWhile_sublist isWhite).subset (List.mem_reverse.mp h)
  exact (List.dropWhile_sublist isWhite).subset (List.mem_reverse.mp hend)

lemma isWhite_head?_trimStart : ∀ c ∈ (trimStart isWhite cs).head?, isWhite c = false := by
  intro c hc
  have hhead := List.head?_dropWhile_not isWhite cs
  rwa [← trimStart, Option.mem_def.mp hc] at hhead

/-- A trimmed text does not start with white space. -/
lemma isWhite_head?_trim : ∀ c ∈ (trim cs).head?, isWhite c = false := by
  intro c hc
  obtain ⟨rest, hrest⟩ := List.head?_eq_some_iff.mp hc
  -- the first character stays the first one when the end is trimmed
  have hprefix : trim cs <+: trimStart isWhite cs := by
    rw [trim, trimEnd, ← List.reverse_suffix, List.reverse_reverse]
    exact List.dropWhile_suffix isWhite
  obtain ⟨t, ht⟩ := hprefix
  have hhead : c ∈ (trimStart isWhite cs).head? := by
    rw [← ht, hrest]
    rfl
  exact isWhite_head?_trimStart c hhead

/-- A trimmed text does not end in white space. -/
lemma isWhite_getLast?_trim : ∀ c ∈ (trim cs).getLast?, isWhite c = false := by
  intro c hc
  rw [trim, trimEnd, List.getLast?_reverse] at hc
  have hhead := List.head?_dropWhile_not isWhite (trimStart isWhite cs).reverse
  rwa [Option.mem_def.mp hc] at hhead

/-- A text that neither starts nor ends with white space is trimmed. -/
lemma trim_eq_self (hfirst : ∀ c ∈ cs.head?, isWhite c = false)
    (hlast : ∀ c ∈ cs.getLast?, isWhite c = false) : trim cs = cs := by
  have htrim := trim_surrounded (a := []) (b := []) (by simp) (by simp) hfirst hlast
  rwa [List.append_nil, List.nil_append] at htrim

/-- Trimming again changes nothing. -/
lemma trim_trim (cs : List Char) : trim (trim cs) = trim cs :=
  trim_eq_self isWhite_head?_trim isWhite_getLast?_trim

/-- White space behind a text does not matter. -/
lemma trim_append_white {b : List Char} (hb : ∀ c ∈ b, isWhite c = true) :
    trim (cs ++ b) = trim cs := by
  obtain ⟨a, b', hcs, ha, hb'⟩ := exists_eq_trim cs
  have hback : ∀ c ∈ b' ++ b, isWhite c = true := List.forall_mem_append.mpr ⟨hb', hb⟩
  calc trim (cs ++ b) = trim (a ++ (trim cs ++ (b' ++ b))) := by
        conv_lhs => rw [hcs, List.append_assoc, List.append_assoc]
    _ = trim cs := trim_surrounded ha hback isWhite_head?_trim isWhite_getLast?_trim

/-- White space in front does not matter. -/
lemma trim_trimStart (cs : List Char) : trim (trimStart isWhite cs) = trim cs := by
  rw [trim, trim, trimStart, trimStart, List.dropWhile_idempotent]

lemma trim_eq_nil_iff : trim cs = [] ↔ ∀ c ∈ cs, isWhite c = true := by
  constructor
  · intro h
    obtain ⟨a, b, hcs, ha, hb⟩ := exists_eq_trim cs
    rw [h, List.nil_append] at hcs
    rw [hcs]
    exact List.forall_mem_append.mpr ⟨ha, hb⟩
  · intro h
    rw [trim, trimStart, List.dropWhile_eq_nil_iff.mpr h, trimEnd_nil]

lemma isBlank_iff {s : String} : isBlank s = true ↔ trim s.toList = [] := by
  rw [isBlank, List.all_eq_true, trim_eq_nil_iff]

end BuildLens.Text
