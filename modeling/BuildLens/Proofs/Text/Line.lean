/-
Lines and their ends.

A text is cut into lines behind its line feeds, and a carriage return in front of a line feed
belongs to the end of the line.  What stands in front of the end is one line but for that carriage
return (`lines_row`), so a text is a row of lines with their ends, and what holds of every such text
holds of all (`lines_induction`).
-/
import Mathlib.Data.List.Basic
import Mathlib.Tactic.SplitIfs
import BuildLens.Text.Line

namespace BuildLens.Text

/-- The end of a line. -/
inductive LineEnd where
  /-- A line feed. -/
  | lineFeed
  /-- A carriage return and a line feed. -/
  | returnAndFeed

/-- The text of the end of a line. -/
def LineEnd.text : LineEnd → List Char
  | .lineFeed => ['\n']
  | .returnAndFeed => ['\r', '\n']

variable {l : List Char}

/-- A character that is no part of an ending starts the line that stands behind it. -/
lemma lines_cons {c : Char} {cs : List Char} (hc : c ≠ '\n')
    (hreturn : ¬ (c = '\r' ∧ cs.head? = some '\n')) {ls : List (List Char)}
    (hcs : lines cs = l :: ls) : lines (c :: cs) = (c :: l) :: ls := by
  rw [lines, if_neg hc, if_neg hreturn, hcs]

lemma head?_append_ne_newline (hl : '\n' ∉ l) (hne : l ≠ []) (rest : List Char) :
    (l ++ rest).head? ≠ some '\n' := by
  obtain ⟨c, l, rfl⟩ := List.exists_cons_of_ne_nil hne
  simpa using (List.ne_of_not_mem_cons hl).symm

lemma lines_append_return (hl : '\n' ∉ l) (rest : List Char) :
    lines (l ++ '\r' :: '\n' :: rest) = l :: lines rest := by
  induction l with
  | nil => simp [lines]
  | cons c l ih =>
    have hrest := List.not_mem_of_not_mem_cons hl
    refine lines_cons (List.ne_of_not_mem_cons hl).symm (fun h => ?_) (ih hrest)
    cases l with
    | nil => simp at h
    | cons d l => exact head?_append_ne_newline hrest (by simp) _ h.2

lemma lines_append_newline (hl : '\n' ∉ l) (hlast : l.getLast? ≠ some '\r') (rest : List Char) :
    lines (l ++ '\n' :: rest) = l :: lines rest := by
  induction l with
  | nil => exact lines_newline rest
  | cons c l ih =>
    have hc := (List.ne_of_not_mem_cons hl).symm
    have hrest := List.not_mem_of_not_mem_cons hl
    cases l with
    | nil =>
      have hreturn : c ≠ '\r' := by
        rintro rfl
        exact hlast rfl
      exact lines_cons hc (fun h => hreturn h.1) (lines_newline rest)
    | cons d l =>
      rw [List.getLast?_cons_cons] at hlast
      exact lines_cons hc (fun h => head?_append_ne_newline hrest (by simp) _ h.2)
        (ih hrest hlast)

lemma lines_of_not_mem (hl : '\n' ∉ l) (hne : l ≠ []) : lines l = [l] := by
  induction l with
  | nil => contradiction
  | cons c l ih =>
    have hc := (List.ne_of_not_mem_cons hl).symm
    have hrest := List.not_mem_of_not_mem_cons hl
    cases l with
    | nil => rw [lines, if_neg hc, if_neg (by simp), lines_nil]
    | cons d l =>
      have hhead := head?_append_ne_newline hrest (by simp) []
      rw [List.append_nil] at hhead
      exact lines_cons hc (fun h => hhead h.2) (ih hrest (by simp))

/-- A line without the carriage return at its end, if it has one. -/
def withoutReturn (l : List Char) : List Char :=
  if l.getLast? = some '\r' then l.dropLast else l

@[simp] lemma withoutReturn_append_return (l : List Char) : withoutReturn (l ++ ['\r']) = l := by
  simp [withoutReturn]

lemma withoutReturn_of_getLast? (h : l.getLast? ≠ some '\r') : withoutReturn l = l :=
  if_neg h

lemma last_return_cases (l : List Char) :
    (∃ l', l = l' ++ ['\r']) ∨ l.getLast? ≠ some '\r' := by
  rw [← List.getLast?_eq_some_iff]
  exact em _

/-- A line feed takes a carriage return in front of it away from the line. -/
lemma lines_append_feed (hl : '\n' ∉ l) (rest : List Char) :
    lines (l ++ '\n' :: rest) = withoutReturn l :: lines rest := by
  rcases last_return_cases l with ⟨l', rfl⟩ | hlast
  · rw [withoutReturn_append_return, List.append_assoc]
    exact lines_append_return (fun hmem => hl (List.mem_append_left _ hmem)) rest
  · rw [withoutReturn_of_getLast? hlast, lines_append_newline hl hlast]

/-- Without a carriage return at its end a row is a line. -/
lemma lines_row (hl : '\n' ∉ l) (e : LineEnd) (rest : List Char) :
    ∃ l', lines (l ++ e.text ++ rest) = l' :: lines rest ∧ (l = l' ∨ l = l' ++ ['\r']) := by
  rw [List.append_assoc]
  cases e with
  | returnAndFeed => exact ⟨l, lines_append_return hl rest, .inl rfl⟩
  | lineFeed =>
    refine ⟨withoutReturn l, lines_append_feed hl rest, ?_⟩
    rcases last_return_cases l with ⟨l', rfl⟩ | hlast
    · exact .inr (by rw [withoutReturn_append_return])
    · exact .inl (withoutReturn_of_getLast? hlast).symm

/-! ## All lines of a text -/

/-- A line contains no line feed. -/
lemma newline_not_mem_of_mem_lines {cs : List Char} (h : l ∈ lines cs) : '\n' ∉ l := by
  induction cs generalizing l with
  | nil => exact absurd h List.not_mem_nil
  | cons c cs ih =>
    rw [lines] at h
    split_ifs at h with hc hreturn
    · rcases List.mem_cons.mp h with rfl | h
      · exact List.not_mem_nil
      · exact ih h
    · exact ih h
    · split at h
      next =>
        rw [List.mem_singleton.mp h]
        simpa using Ne.symm hc
      next l' ls hcs =>
        rw [hcs] at ih
        rcases List.mem_cons.mp h with rfl | h
        · exact List.not_mem_cons_of_ne_of_not_mem (Ne.symm hc) (ih List.mem_cons_self)
        · exact ih (List.mem_cons_of_mem _ h)

/-- Induction on the lines of a text: the last one may have no end. -/
theorem lines_induction {P : List Char → Prop} (nil : P [])
    (last : ∀ l, '\n' ∉ l → l ≠ [] → P l)
    (row : ∀ l (e : LineEnd) rest, '\n' ∉ l → lines (l ++ (e.text ++ rest)) = l :: lines rest →
      P rest → P (l ++ (e.text ++ rest)))
    (cs : List Char) : P cs := by
  induction hn : cs.length using Nat.strongRecOn generalizing cs with
  | _ n ih =>
    cases hlines : lines cs with
    | nil =>
      rw [eq_nil_of_lines_eq_nil hlines]
      exact nil
    | cons l ls =>
      have hl : '\n' ∉ l := newline_not_mem_of_mem_lines (hlines ▸ List.mem_cons_self)
      rcases eq_append_of_lines_eq_cons hlines with ⟨rfl, -⟩ | ⟨rest, rfl, hcs⟩
      · refine last cs hl ?_
        rintro rfl
        exact absurd hlines (by simp)
      · obtain ⟨e, rfl⟩ : ∃ e : LineEnd, cs = l ++ (e.text ++ rest) := by
          rcases hcs with rfl | rfl
          · exact ⟨.lineFeed, rfl⟩
          · exact ⟨.returnAndFeed, rfl⟩
        have hlength : rest.length < n := by
          have hpos : 0 < e.text.length := by cases e <;> simp [LineEnd.text]
          rw [← hn, List.length_append, List.length_append]
          omega
        exact row l e rest hl hlines (ih rest.length hlength rest rfl)

end BuildLens.Text
