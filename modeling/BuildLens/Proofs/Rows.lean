/-
Needles within a row.

What is searched for to find an anchor neither contains a line feed nor ends in a carriage return,
so it cannot reach into the end of a line: it stands *in a row*.  Hence

* `InRow.find?_row`: the search through a row, its end and what follows is the search through the
  row and then through what follows;
* `InRow.exists_line`: wherever the needle stands in a text it stands in a line, and the number of
  that line is the number of the line feeds in front of it.
-/
import BuildLens.Proofs.Locate
import BuildLens.Proofs.Text.Line

namespace BuildLens.Text.Utf8

/-! ## ASCII characters in the form of a text -/

variable {cs : List Char} {a : UInt8}

lemma encode_singleton_ascii (ha : a < 0x80) : encode [Char.ofNat a.toNat] = [a] := by
  rw [encode_cons, encode_ascii ha, encode_nil, List.append_nil]

/-- Where an ASCII byte stands in the form of a text, its character stands in the text. -/
lemma exists_of_encode_eq_ascii {x y : Bytes} (ha : a < 0x80) (h : encode cs = x ++ a :: y) :
    ∃ ds es, cs = ds ++ Char.ofNat a.toNat :: es ∧ encode ds = x ∧ encode es = y := by
  have hfresh : Fresh (a :: y) := by
    rintro b ⟨⟩
    exact isTail_of_ascii ha
  obtain ⟨ds, es, rfl, hds, hes⟩ := exists_of_encode_eq h hfresh
  have hread : es = Char.ofNat a.toNat :: decode y := by
    rw [← decode_encode es, hes, decode_ascii y ha]
  rw [hread, encode_cons, encode_ascii ha] at hes
  exact ⟨ds, decode y, by rw [hread], hds, (List.cons.inj hes).2⟩

lemma mem_encode_ascii (ha : a < 0x80) : a ∈ encode cs ↔ Char.ofNat a.toNat ∈ cs := by
  constructor
  · intro h
    obtain ⟨x, y, hxy⟩ := List.append_of_mem h
    obtain ⟨ds, es, rfl, -⟩ := exists_of_encode_eq_ascii ha hxy
    simp
  · intro h
    obtain ⟨ds, es, rfl⟩ := List.append_of_mem h
    rw [encode_append, encode_cons, encode_ascii ha]
    simp

lemma getLast?_encode_ascii (ha : a < 0x80) :
    (encode cs).getLast? = some a ↔ cs.getLast? = some (Char.ofNat a.toNat) := by
  rw [List.getLast?_eq_some_iff, List.getLast?_eq_some_iff]
  constructor
  · rintro ⟨x, hx⟩
    obtain ⟨ds, es, rfl, -, hes⟩ := exists_of_encode_eq_ascii ha hx
    cases es with
    | nil => exact ⟨ds, rfl⟩
    | cons e es => exact absurd hes (encode_ne_nil (by simp))
  · rintro ⟨ds, rfl⟩
    exact ⟨encode ds, by rw [encode_append, encode_singleton_ascii ha]⟩

lemma newline_mem_encode : 0x0A ∈ encode cs ↔ '\n' ∈ cs :=
  mem_encode_ascii (by decide)

end BuildLens.Text.Utf8

namespace BuildLens.Locate

open BuildLens.Text
open BuildLens.Text.Utf8

/-! ## Needles -/

/-- A needle that can only stand within a row. -/
structure InRow (needle : Bytes) : Prop where
  ne_nil : needle ≠ []
  newline : 0x0A ∉ needle
  last : needle.getLast? ≠ some 0x0D

section Needles

variable {mode : Mode} {signature needle : List Char} {line : Option (List Char)}

lemma InRow.of_text (hne : needle ≠ []) (hnewline : '\n' ∉ needle)
    (hlast : needle.getLast? ≠ some '\r') : InRow (encode needle) where
  ne_nil := encode_ne_nil hne
  newline h := hnewline (newline_mem_encode.mp h)
  last h := hlast ((getLast?_encode_ascii (by decide)).mp h)

/-- What is left of a trimmed signature does not end in white space either. -/
lemma isWhite_getLast?_normalize (cs : List Char) :
    ∀ c ∈ (normalize (trim cs)).getLast?, isWhite c = false := by
  intro c hc
  rw [normalize] at hc
  split_ifs at hc
  · exact isWhite_getLast?_trim c hc
  · obtain rfl : templateMarker = c := by simpa using hc
    decide

lemma getLast?_ne_return {cs : List Char} (h : ∀ c ∈ cs.getLast?, isWhite c = false) :
    cs.getLast? ≠ some '\r' := by
  intro hlast
  exact absurd (h '\r' hlast) (by decide)

/-- What is searched for to find a function does not end in a carriage return. -/
lemma functionNeedle_getLast? (h : functionNeedle mode signature = some needle) :
    needle.getLast? ≠ some '\r' := by
  have hname := getLast?_ne_return (isWhite_getLast?_normalize signature)
  by_cases hempty : normalize (trim signature) = []
  · simp [functionNeedle, hempty] at h
  cases mode with
  | assembly =>
    obtain rfl : procedureMarker ++ normalize (trim signature) = needle := by
      simpa [functionNeedle, hempty] using h
    rwa [List.getLast?_append_of_ne_nil _ hempty]
  | preprocessed =>
    by_cases htemplate : (normalize (trim signature)).getLast? = some templateMarker
    · obtain rfl : normalize (trim signature) = needle := by
        simpa [functionNeedle, hempty, htemplate] using h
      exact hname
    · obtain rfl : normalize (trim signature) ++ callMarker = needle := by
        simpa [functionNeedle, hempty, htemplate] using h
      simp [callMarker]

lemma InRow.of_functionNeedle (h : functionNeedle mode signature = some needle)
    (hnewline : '\n' ∉ needle) : InRow (encode needle) :=
  .of_text (functionNeedle_spec h).1 hnewline (functionNeedle_getLast? h)

lemma InRow.of_lineNeedle (h : lineNeedle line = some needle) (hnewline : '\n' ∉ needle) :
    InRow (encode needle) := by
  refine .of_text (lineNeedle_spec h).1 hnewline ?_
  obtain ⟨htrim, -⟩ := Option.filter_eq_some_iff.mp h
  obtain ⟨l, -, rfl⟩ := Option.map_eq_some_iff.mp htrim
  exact getLast?_ne_return isWhite_getLast?_trim

end Needles

/-! ## Rows and their ends -/

section Rows

variable {needle r bs : Bytes}

/-- Of two cuts of the same bytes the second one is not in front of the first, or is. -/
lemma split_append {a b c d : Bytes} (h : a ++ b = c ++ d) :
    (∃ c', c = a ++ c' ∧ b = c' ++ d) ∨ ∃ a', a' ≠ [] ∧ a = c ++ a' ∧ d = a' ++ b := by
  rcases List.append_eq_append_iff.mp h with hbehind | ⟨a', ha, hd⟩
  · exact .inl hbehind
  · rcases eq_or_ne a' [] with rfl | hne
    · exact .inl ⟨[], by simpa using ha.symm, hd.symm⟩
    · exact .inr ⟨a', hne, ha, hd⟩

lemma encode_text_cases (e : LineEnd) : encode e.text = [0x0A] ∨ encode e.text = [0x0D, 0x0A] := by
  cases e with
  | lineFeed => exact .inl rfl
  | returnAndFeed => exact .inr rfl

/-- A needle that stands within a row does not reach into its end. -/
lemma InRow.of_append (h : InRow needle) (e : LineEnd)
    (hstarts : needle <+: r ++ (encode e.text ++ bs)) : needle <+: r := by
  obtain ⟨t, ht⟩ := hstarts
  rcases List.append_eq_append_iff.mp ht with ⟨w, rfl, -⟩ | ⟨w, rfl, hw⟩
  · exact List.prefix_append _ _
  rcases w with _ | ⟨b, w⟩
  · simp
  -- otherwise it contains the line feed, or ends in the carriage return in front of it
  exfalso
  rcases encode_text_cases e with he | he <;> rw [he] at hw
  · obtain ⟨rfl, -⟩ := List.cons.inj hw
    exact h.newline (by simp)
  · obtain ⟨rfl, hrest⟩ := List.cons.inj hw
    rcases w with _ | ⟨b, w⟩
    · exact h.last (by simp)
    · obtain ⟨rfl, -⟩ := List.cons.inj hrest
      exact h.newline (by simp)

lemma InRow.isPrefixOf_append (h : InRow needle) (e : LineEnd) (r bs : Bytes) :
    needle.isPrefixOf (r ++ (encode e.text ++ bs)) = needle.isPrefixOf r := by
  rw [Bool.eq_iff_iff, List.isPrefixOf_iff_prefix, List.isPrefixOf_iff_prefix]
  exact ⟨h.of_append e, fun hr => hr.trans (List.prefix_append _ _)⟩

lemma find?_cons_of_not_startsWith {b : UInt8} (hstarts : needle.isPrefixOf (b :: bs) = false) :
    find? needle (b :: bs) = (find? needle bs).map (· + 1) := by
  rw [find?, if_neg (by simp [hstarts])]

/-- Nothing is found in the end of a row. -/
lemma InRow.find?_end (h : InRow needle) (e : LineEnd) (bs : Bytes) :
    find? needle (encode e.text ++ bs) = (find? needle bs).map (· + (encode e.text).length) := by
  have hnil : needle.isPrefixOf [] = false := by
    obtain ⟨b, n, rfl⟩ := List.exists_cons_of_ne_nil h.ne_nil
    rfl
  have hfeed : find? needle (0x0A :: bs) = (find? needle bs).map (· + 1) :=
    find?_cons_of_not_startsWith ((h.isPrefixOf_append .lineFeed [] bs).trans hnil)
  cases e with
  | lineFeed => exact hfeed
  | returnAndFeed =>
    have hreturn : find? needle (0x0D :: 0x0A :: bs) =
        (find? needle (0x0A :: bs)).map (· + 1) :=
      find?_cons_of_not_startsWith ((h.isPrefixOf_append .returnAndFeed [] bs).trans hnil)
    rw [hfeed, Option.map_map] at hreturn
    exact hreturn

/-- The search through a row and what follows is that through the row, and then that through what
follows. -/
lemma InRow.find?_row (h : InRow needle) (e : LineEnd) (r bs : Bytes) :
    find? needle (r ++ (encode e.text ++ bs)) =
      (find? needle r).or ((find? needle bs).map (· + (r ++ encode e.text).length)) := by
  induction r with
  | nil =>
    have hnil : find? needle [] = none := by simp [find?, h.ne_nil]
    rw [hnil, Option.none_or]
    exact h.find?_end e bs
  | cons b r ih =>
    have hstarts := h.isPrefixOf_append e (b :: r) bs
    rw [List.cons_append] at hstarts ⊢
    cases hfirst : needle.isPrefixOf (b :: r) with
    | true => rw [find?, find?, hstarts, if_pos hfirst, if_pos hfirst, Option.some_or]
    | false =>
      rw [find?_cons_of_not_startsWith hfirst, find?_cons_of_not_startsWith (hstarts.trans hfirst), ih,
        Option.map_or, Option.map_map]
      rfl

lemma InRow.not_prefix_end (h : InRow needle) {e : LineEnd} {u v : Bytes}
    (he : encode e.text = u ++ v) (hv : v ≠ []) : ¬ needle <+: v ++ bs := by
  obtain ⟨e', rfl⟩ : ∃ e' : LineEnd, v = encode e'.text := by
    rcases u with _ | ⟨b, u⟩
    · exact ⟨e, he.symm⟩
    -- what is left of an end is the line feed
    rcases encode_text_cases e with htext | htext <;> rw [htext] at he
    · obtain ⟨-, hrest⟩ := List.cons.inj he
      exact absurd (List.append_eq_nil_iff.mp hrest.symm).2 hv
    · obtain ⟨-, hrest⟩ := List.cons.inj he
      rcases u with _ | ⟨b, u⟩
      · exact ⟨.lineFeed, hrest.symm⟩
      · obtain ⟨-, hrest⟩ := List.cons.inj hrest
        exact absurd (List.append_eq_nil_iff.mp hrest.symm).2 hv
  intro hstarts
  exact h.ne_nil (List.prefix_nil.mp (h.of_append e' (r := []) hstarts))

lemma infix_of_encode_eq {n l : List Char} {s t : Bytes} (hn : n ≠ [])
    (h : encode l = s ++ (encode n ++ t)) : n <:+: l := by
  obtain ⟨ds, es, rfl, -, hes⟩ := exists_of_encode_eq h (fresh_encode_append hn t)
  have hread : es = n ++ decode t := by
    rw [← decode_encode es, hes, decode_encode_append]
  exact ⟨ds, decode t, by rw [hread, List.append_assoc]⟩

lemma count_newline_of_encode_eq {l : List Char} {s t : Bytes} (hl : '\n' ∉ l)
    (h : encode l = s ++ t) : s.count 0x0A = 0 := by
  rw [List.count_eq_zero]
  intro hmem
  exact hl (newline_mem_encode.mp (h ▸ List.mem_append_left t hmem))

lemma count_newline_row (hr : 0x0A ∉ r) (e : LineEnd) : (r ++ encode e.text).count 0x0A = 1 := by
  rw [List.count_append, List.count_eq_zero.mpr hr]
  cases e <;> rfl

/-- Wherever a needle stands in a text it stands in a line, the one of its place. -/
theorem InRow.exists_line {n cs : List Char} (h : InRow (encode n)) {s t : Bytes}
    (hcs : encode cs = s ++ (encode n ++ t)) :
    ∃ l, (lines cs)[s.count 0x0A]? = some l ∧ n <:+: l := by
  have hn : n ≠ [] := by
    rintro rfl
    exact h.ne_nil rfl
  induction cs using lines_induction generalizing s with
  | nil =>
    obtain ⟨-, hnil⟩ := List.append_eq_nil_iff.mp hcs.symm
    exact absurd (List.append_eq_nil_iff.mp hnil).1 h.ne_nil
  | last l hl hne =>
    rw [lines_of_not_mem hl hne, count_newline_of_encode_eq hl hcs]
    exact ⟨l, rfl, infix_of_encode_eq hn hcs⟩
  | row l e rest hl hlines ih =>
    rw [hlines]
    rw [encode_append, encode_append, ← List.append_assoc] at hcs
    -- the needle stands behind the row, or it starts in the row or in its end
    rcases split_append hcs with ⟨s', rfl, hrest⟩ | ⟨w, hw, hrow, hneedle⟩
    · obtain ⟨l', hl', hinfix⟩ := ih hrest
      refine ⟨l', ?_, hinfix⟩
      rw [List.count_append, count_newline_row (mt newline_mem_encode.mp hl), Nat.add_comm,
        List.getElem?_cons_succ]
      exact hl'
    · have hstarts : encode n <+: w ++ encode rest := ⟨t, hneedle⟩
      rcases split_append hrow with ⟨u, -, hend⟩ | ⟨v, -, hl', rfl⟩
      · exact absurd hstarts (h.not_prefix_end hend hw)
      · rw [List.append_assoc] at hstarts
        obtain ⟨v', rfl⟩ := h.of_append e hstarts
        rw [count_newline_of_encode_eq hl hl']
        exact ⟨l, rfl, infix_of_encode_eq hn hl'⟩

end Rows

end BuildLens.Locate
