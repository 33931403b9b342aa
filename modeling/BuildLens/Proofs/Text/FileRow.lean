/-
Rows of a file.

The bytes of a file are cut at the line feeds into rows, whatever their encoding.  Read as text and
trimmed, a row is the line that a reader of the text finds in its place (`trim_line`); where there
is no line any more the row is blank.

What is left of a row without the ASCII white space around it still contains its trimmed text, if
the row is well-formed (`encode_trim_isInfix`): that text may be shorter, since it has no other
white space around it either.
-/
import Mathlib.Data.List.DropRight
import BuildLens.Proofs.Rows
import BuildLens.Proofs.Text.Trimming

namespace BuildLens.Text

open BuildLens.Text.Utf8

/-! ## Rows and lines -/

/-- The rows of a file. -/
def rowsOf (bs : Bytes) : List Bytes :=
  bs.splitOn 0x0A

/-- The text of a row, without white space around it. -/
def rowText (row : Bytes) : List Char :=
  trim (decode row)

lemma trim_withoutReturn (l : List Char) : trim (withoutReturn l) = trim l := by
  rcases last_return_cases l with ⟨l', rfl⟩ | hlast
  · rw [withoutReturn_append_return]
    exact (trim_append_white (List.forall_mem_singleton.mpr (by decide))).symm
  · rw [withoutReturn_of_getLast? hlast]

lemma newline_not_mem_decode {bs : Bytes} (h : 0x0A ∉ bs) : '\n' ∉ decode bs := by
  rw [← newline_mem_encode, ← List.count_eq_zero]
  exact (count_mend bs).trans (List.count_eq_zero.mpr h)

lemma rowsOf_of_not_mem {r : Bytes} (hr : 0x0A ∉ r) : rowsOf r = [r] :=
  List.splitOnP_eq_singleton fun b hb => by simpa using ne_of_mem_of_not_mem hb hr

lemma rowsOf_append {r : Bytes} (hr : 0x0A ∉ r) (rest : Bytes) :
    rowsOf (r ++ 0x0A :: rest) = r :: rowsOf rest :=
  List.splitOnP_append_cons_of_forall_mem
    (fun b hb => by simpa using ne_of_mem_of_not_mem hb hr) 0x0A rfl rest

/-- Induction on the rows of a file. -/
lemma rows_induction {P : Bytes → Prop} (last : ∀ r, 0x0A ∉ r → P r)
    (row : ∀ r rest, 0x0A ∉ r → P rest → P (r ++ 0x0A :: rest)) (bs : Bytes) : P bs := by
  induction hn : bs.length using Nat.strongRecOn generalizing bs with
  | ind n ih =>
    by_cases hmem : 0x0A ∈ bs
    · obtain ⟨r, rest, rfl, hr⟩ := List.eq_append_cons_of_mem hmem
      refine row r rest hr (ih rest.length ?_ rest rfl)
      rw [← hn, List.length_append, List.length_cons]
      omega
    · exact last bs hmem

/-- Trimmed, a line of a text is the text of the row in its place. -/
theorem trim_line (bs : Bytes) (k : Nat) :
    ((lines (decode bs))[k]?.map trim).getD [] = ((rowsOf bs)[k]?.map rowText).getD [] := by
  induction bs using rows_induction generalizing k with
  | last r hr =>
    have hnewline := newline_not_mem_decode hr
    rw [rowsOf_of_not_mem hr]
    by_cases hnil : decode r = []
    · cases k <;> simp [rowText, hnil]
    · rw [lines_of_not_mem hnewline hnil]
      cases k <;> simp [rowText]
  | row r rest hr ih =>
    have hnewline := newline_not_mem_decode hr
    rw [rowsOf_append hr, decode_append_ascii (by decide)]
    have hlines : lines (decode r ++ Char.ofNat (0x0A : UInt8).toNat :: decode rest) =
        withoutReturn (decode r) :: lines (decode rest) := lines_append_feed hnewline _
    rw [hlines]
    cases k with
    | zero => simp [rowText, trim_withoutReturn]
    | succ k => simpa using ih k

/-! ## ASCII white space -/

/-- The white space of ASCII, without the vertical tab. -/
def isAsciiWhite (b : UInt8) : Bool :=
  b == 0x20 || b == 0x09 || b == 0x0A || b == 0x0C || b == 0x0D

/-- Bytes without the ASCII white space around them. -/
def stripAscii (bs : Bytes) : Bytes :=
  (bs.dropWhile isAsciiWhite).rdropWhile isAsciiWhite

section

variable {α : Type} {p : α → Bool} {y : List α}

lemma dropWhile_append_of_head (x : List α) (hne : y ≠ []) (hy : ∀ b ∈ y.head?, p b = false) :
    (x ++ y).dropWhile p = x.dropWhile p ++ y := by
  obtain ⟨b, y, rfl⟩ := List.exists_cons_of_ne_nil hne
  have hb : p b = false := hy b rfl
  rw [List.dropWhile_append]
  split
  next hempty =>
    rw [List.isEmpty_iff.mp hempty, List.nil_append, List.dropWhile_cons_of_neg (by simp [hb])]
  next => rfl

lemma rdropWhile_append_of_last (z : List α) (hne : y ≠ []) (hy : ∀ b ∈ y.getLast?, p b = false) :
    (y ++ z).rdropWhile p = y ++ z.rdropWhile p := by
  rw [← List.head?_reverse] at hy
  rw [List.rdropWhile, List.reverse_append,
    dropWhile_append_of_head _ (by simpa using hne) hy, List.reverse_append, List.reverse_reverse]
  rfl

end

section

variable {cs : List Char}

lemma ascii_of_isAsciiWhite {b : UInt8} (hb : isAsciiWhite b = true) :
    b < 0x80 ∧ isWhite (Char.ofNat b.toNat) = true := by
  simp only [isAsciiWhite, Bool.or_eq_true, beq_iff_eq] at hb
  rcases hb with (((rfl | rfl) | rfl) | rfl) | rfl <;> decide

/-- A text that does not start with white space does not do so in its UTF-8 form. -/
lemma isAsciiWhite_head?_encode (h : ∀ c ∈ cs.head?, isWhite c = false) :
    ∀ b ∈ (encode cs).head?, isAsciiWhite b = false := by
  intro b hb
  obtain ⟨t, ht⟩ := List.head?_eq_some_iff.mp hb
  by_contra hwhite
  rw [Bool.not_eq_false] at hwhite
  obtain ⟨hascii, hchar⟩ := ascii_of_isAsciiWhite hwhite
  obtain ⟨ds, es, rfl, hds, -⟩ := exists_of_encode_eq_ascii (x := []) hascii ht
  obtain rfl : ds = [] := by
    by_contra hne
    exact encode_ne_nil hne hds
  rw [h _ rfl] at hchar
  contradiction

/-- The same for the end of a text. -/
lemma isAsciiWhite_getLast?_encode (h : ∀ c ∈ cs.getLast?, isWhite c = false) :
    ∀ b ∈ (encode cs).getLast?, isAsciiWhite b = false := by
  intro b hb
  by_contra hwhite
  rw [Bool.not_eq_false] at hwhite
  obtain ⟨hascii, hchar⟩ := ascii_of_isAsciiWhite hwhite
  rw [h _ ((getLast?_encode_ascii hascii).mp hb)] at hchar
  contradiction

/-- The trimmed text of a well-formed row stands in what is left of the row without ASCII white
space. -/
theorem encode_trim_isInfix (hne : trim cs ≠ []) :
    encode (trim cs) <:+: stripAscii (encode cs) := by
  obtain ⟨a, b, hcs, -, -⟩ := exists_eq_trim cs
  have htext := encode_ne_nil hne
  have hfirst : ∀ x ∈ (encode (trim cs) ++ encode b).head?, isAsciiWhite x = false := by
    rw [List.head?_append_of_ne_nil _ htext]
    exact isAsciiWhite_head?_encode isWhite_head?_trim
  have hlast : ∀ x ∈ (encode (trim cs)).getLast?, isAsciiWhite x = false :=
    isAsciiWhite_getLast?_encode isWhite_getLast?_trim
  have hstrip : stripAscii (encode cs) = (encode a).dropWhile isAsciiWhite ++
      (encode (trim cs) ++ (encode b).rdropWhile isAsciiWhite) := by
    rw [stripAscii]
    conv_lhs => rw [hcs, encode_append, encode_append]
    rw [dropWhile_append_of_head _ (by simp [htext]) hfirst, ← List.append_assoc,
      rdropWhile_append_of_last _ (by simp [htext]), List.append_assoc]
    rwa [List.getLast?_append_of_ne_nil _ htext]
  rw [hstrip]
  exact ⟨_, _, List.append_assoc ..⟩

end

end BuildLens.Text
