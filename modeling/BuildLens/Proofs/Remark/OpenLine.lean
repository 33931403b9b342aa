/-
Lines that are not ended.

What is printed behind a line that is not ended goes on with that line, the `openLine` of the text
so far.  A row that is empty or ends in a given thing is one that `EndsIn` it; so a text that ends
in a line feed leaves no line open.  Then

* `Utf8.endsIn_decode`: bytes that end in a line feed are read as a text that does;
* `Remark.extract_append_open`: if no remark stands in the open line, then what is printed next
  adds the remarks that are found in it and the open line together.
-/
import Mathlib.Data.List.DropRight
import BuildLens.Proofs.Remark.Separation
import BuildLens.Proofs.Text.Decoding

namespace BuildLens

open BuildLens.Text

/-! ## Rows that end in a given thing -/

/-- A row that ends in a given thing, if it is not empty. -/
def EndsIn {α : Type} (x : α) (l : List α) : Prop :=
  ∀ y ∈ l.getLast?, y = x

instance {α : Type} [DecidableEq α] (x : α) (l : List α) : Decidable (EndsIn x l) :=
  decidable_of_iff (l.getLast?.all (· = x) = true) (by simp [EndsIn, Option.all_eq_true])

namespace EndsIn

variable {α : Type} {x : α} {l m : List α}

lemma nil (x : α) : EndsIn x [] := by
  rintro y ⟨⟩

lemma concat (l : List α) (x : α) : EndsIn x (l ++ [x]) := by
  intro y hy
  rw [List.getLast?_concat] at hy
  exact (Option.some.inj hy).symm

lemma cases (h : EndsIn x l) : l = [] ∨ ∃ front, l = front ++ [x] := by
  rcases List.eq_nil_or_concat' l with rfl | ⟨front, y, rfl⟩
  · exact .inl rfl
  · obtain rfl := h y List.getLast?_concat
    exact .inr ⟨front, rfl⟩

lemma append (hl : EndsIn x l) (hm : EndsIn x m) : EndsIn x (l ++ m) := by
  rcases hm.cases with rfl | ⟨front, rfl⟩
  · rwa [List.append_nil]
  · rw [← List.append_assoc]
    exact concat _ x

end EndsIn

/-! ## Reading the end of a line -/

namespace Text.Utf8

/-- What ends in a line feed is read as something that ends in one. -/
lemma endsIn_decode {bs : Bytes} (h : EndsIn 0x0A bs) : EndsIn '\n' (decode bs) := by
  rcases h.cases with rfl | ⟨front, rfl⟩
  · exact .nil '\n'
  · rw [decode_append_ascii (by decide)]
    exact .concat _ '\n'

end Text.Utf8

/-! ## The open line of a text -/

/-- The last line of a text, if it is not ended. -/
def openLine (cs : List Char) : List Char :=
  cs.rtakeWhile (· != '\n')

lemma openLine_newline (cs rest : List Char) : openLine (cs ++ '\n' :: rest) = openLine rest := by
  have hreverse : (cs ++ '\n' :: rest).reverse = rest.reverse ++ '\n' :: cs.reverse := by simp
  rw [openLine, List.rtakeWhile, hreverse, Remark.takeWhile_append_cons (by decide)]
  rfl

lemma openLine_of_not_mem {cs : List Char} (h : '\n' ∉ cs) : openLine cs = cs := by
  refine List.rtakeWhile_eq_self_iff.mpr fun c hc => ?_
  rw [bne_iff_ne]
  rintro rfl
  exact h hc

lemma openLine_append {text : List Char} (htext : EndsIn '\n' text) (cs : List Char) :
    openLine (cs ++ text) = if text = [] then openLine cs else [] := by
  rcases htext.cases with rfl | ⟨front, rfl⟩
  · rw [List.append_nil, if_pos rfl]
  · rw [← List.append_assoc, openLine_newline, if_neg (by simp)]
    rfl

/-- In front of the open line all lines are ended. -/
lemma exists_ended (cs : List Char) : ∃ ended, cs = ended ++ openLine cs ∧ EndsIn '\n' ended := by
  refine ⟨cs.rdropWhile (· != '\n'), List.rdropWhile_append_rtakeWhile.symm, fun c hc => ?_⟩
  have hne : cs.rdropWhile (· != '\n') ≠ [] := by
    intro hnil
    simp [hnil] at hc
  have hlast := List.rdropWhile_last_not (· != '\n') cs hne
  rw [List.getLast?_eq_some_getLast hne] at hc
  obtain rfl := Option.some.inj hc
  simpa using hlast

namespace Remark

variable {f : RemarkFamily} {cs : List Char}

/-- What is printed behind an open line without remarks changes nothing in front of that line. -/
lemma extract_append_open (hf : f.Plain) (hopen : extract f (openLine cs) = []) (text : List Char) :
    extract f (cs ++ text) = extract f cs ++ extract f (openLine cs ++ text) := by
  obtain ⟨ended, hcs, hended⟩ := exists_ended cs
  rcases hended.cases with rfl | ⟨front, rfl⟩
  · -- nothing stands in front of the open line
    have hall : cs = openLine cs := hcs
    rw [← hall] at hopen ⊢
    rw [hopen, List.nil_append]
  · -- the open line starts afresh behind the last line end
    have hsplit : ∀ rest,
        extract f (front ++ ['\n'] ++ rest) = extract f front ++ extract f rest := by
      intro rest
      rw [List.append_assoc]
      exact extract_separator hf (by decide) front rest
    calc extract f (cs ++ text)
        = extract f (front ++ ['\n'] ++ (openLine cs ++ text)) := by
          rw [← List.append_assoc, ← hcs]
      _ = extract f front ++ extract f (openLine cs) ++ extract f (openLine cs ++ text) := by
          rw [hsplit, hopen, List.append_nil]
      _ = extract f cs ++ extract f (openLine cs ++ text) := by
          rw [← hsplit, ← hcs]

end Remark

end BuildLens
