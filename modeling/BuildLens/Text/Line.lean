/-
Lines of a text.

A line ends at a line feed, and a carriage return directly before that line feed belongs
to the ending.  What follows the last line feed is a line too, unless it is empty; there a
carriage return is an ordinary character.
-/
namespace BuildLens.Text

/-- The lines of a text, without their endings. -/
def lines : List Char → List (List Char)
  | [] => []
  | c :: cs =>
    if c = '\n' then [] :: lines cs
    else if c = '\r' ∧ cs.head? = some '\n' then lines cs
    else
      match lines cs with
      | [] => [[c]]
      | l :: ls => (c :: l) :: ls

/-- Lines written one after the other, each ended by a line feed. -/
def unlines (ls : List (List Char)) : List Char :=
  ls.flatMap fun l => l ++ ['\n']

/-- A text without its empty lines, every remaining line ended by a line feed. -/
def withoutEmptyLines (cs : List Char) : List Char :=
  unlines ((lines cs).filter fun l => !l.isEmpty)

@[simp] theorem lines_nil : lines [] = [] := rfl

@[simp] theorem unlines_nil : unlines [] = [] := rfl

theorem unlines_cons (l : List Char) (ls : List (List Char)) :
    unlines (l :: ls) = l ++ '\n' :: unlines ls := by
  simp [unlines]

/-- A line feed ends a line. -/
theorem lines_newline (cs : List Char) : lines ('\n' :: cs) = [] :: lines cs := by
  simp [lines]

/-- Only the empty text has no lines. -/
theorem eq_nil_of_lines_eq_nil {cs : List Char} (h : lines cs = []) : cs = [] := by
  induction cs with
  | nil => rfl
  | cons c cs ih =>
    rw [lines] at h
    split at h
    · simp at h
    · split at h
      next hr => rw [ih h] at hr; simp at hr
      next => split at h <;> simp at h

/-- The first line of a text is the whole of it, or is followed by one of the two endings. -/
theorem eq_append_of_lines_eq_cons {cs l : List Char} {ls : List (List Char)}
    (h : lines cs = l :: ls) :
    (cs = l ∧ ls = []) ∨ ∃ rest, lines rest = ls ∧
      (cs = l ++ '\n' :: rest ∨ cs = l ++ '\r' :: '\n' :: rest) := by
  induction cs generalizing l with
  | nil => simp at h
  | cons c cs ih =>
    rw [lines] at h
    split at h
    next hc =>
      obtain ⟨rfl, hls⟩ := List.cons.inj h
      exact .inr ⟨cs, hls, .inl (by rw [hc]; rfl)⟩
    next =>
      split at h
      next hr =>
        obtain ⟨hc, hn⟩ := hr
        obtain ⟨rest, rfl⟩ := List.head?_eq_some_iff.mp hn
        rw [lines_newline] at h
        obtain ⟨rfl, hls⟩ := List.cons.inj h
        exact .inr ⟨rest, hls, .inr (by rw [hc]; rfl)⟩
      next =>
        -- the character belongs to the first line
        split at h
        next hnil =>
          obtain ⟨rfl, hls⟩ := List.cons.inj h
          exact .inl ⟨by rw [eq_nil_of_lines_eq_nil hnil], hls.symm⟩
        next l' ls' hcons =>
          obtain ⟨rfl, rfl⟩ := List.cons.inj h
          rcases ih hcons with ⟨rfl, hls⟩ | ⟨rest, hls, rfl | rfl⟩
          · exact .inl ⟨rfl, hls⟩
          · exact .inr ⟨rest, hls, .inl rfl⟩
          · exact .inr ⟨rest, hls, .inr rfl⟩

end BuildLens.Text
