/-
What is written in JSON is read again.

A value is written as a row of tokens, `tokensOf`.  The lexer finds these tokens in the text of the
value, and the reader builds the value from them, whatever stands behind them and whatever arrays
and objects are open.  Numbers are left out, since no value that is written and read again contains
one.

* `scan_render`: the tokens of a text that starts with a value;
* `build_tokensOf`: the value of the tokens;
* `read_render`: a value is read off its text.

A carriage return behind a text is white space: `read_append_return`.
-/
import Mathlib.Data.List.Basic
import BuildLens.Json.Printer
import BuildLens.Json.Reader

namespace BuildLens.Json

open Token

/-! ## String literals -/

section Quoted

lemma hexValue_hexDigit {n : Nat} (h : n < 16) : hexValue (hexDigit n) = some n := by
  have hall : ∀ n < 16, hexValue (hexDigit n) = some n := by decide
  exact hall n h

/-- A control character is read off its code. -/
lemma scan_code {n : Nat} (hn : n < 0x20) (d : Draft) (rest : List Char) :
    scan (.quoted d)
        (['\\', 'u', '0', '0', hexDigit (n / 16), hexDigit (n % 16)] ++ rest) =
      scan (.quoted (d.pushCode n)) rest := by
  have hdiv : hexValue (hexDigit (n / 16)) = some (n / 16) := hexValue_hexDigit (by omega)
  have hmod : hexValue (hexDigit (n % 16)) = some (n % 16) := hexValue_hexDigit (by omega)
  have hzero : hexValue '0' = some 0 := by decide
  have hcode : 16 * (n / 16) + n % 16 = n := by omega
  simp [scan, hdiv, hmod, hzero, hcode]

/-- A character of a string is read off its escape. -/
lemma scan_escapeChar (cs : List Char) (c : Char) (rest : List Char) :
    scan (.quoted { read := some cs }) (escapeChar c ++ rest) =
      scan (.quoted { read := some (c :: cs) }) rest := by
  rw [escapeChar]
  split_ifs with hquote hback hb hf hn hr ht hcontrol
  · subst hquote; rfl
  · subst hback; rfl
  · subst hb; rfl
  · subst hf; rfl
  · subst hn; rfl
  · subst hr; rfl
  · subst ht; rfl
  · rw [scan_code hcontrol]
    have hhalf : isHighHalf c.toNat = false ∧ isLowHalf c.toNat = false := by
      simp only [isHighHalf, isLowHalf]
      constructor <;> simp <;> omega
    simp [Draft.pushCode, Draft.push, hhalf, Char.ofNat_toNat]
  · simp [scan, hquote, hback, hcontrol, Draft.push]

lemma scan_escaped (cs read rest : List Char) :
    scan (.quoted { read := some read }) (cs.flatMap escapeChar ++ '"' :: rest) =
      (scan .between rest).map (.quoted (some (String.ofList (read.reverse ++ cs))) :: ·) := by
  induction cs generalizing read with
  | nil => simp [scan, Draft.text]
  | cons c cs ih =>
    rw [List.flatMap_cons, List.append_assoc, scan_escapeChar, ih]
    simp

/-- A string is read off its literal. -/
lemma scan_quote (cs rest : List Char) :
    scan .between (quote cs ++ rest) =
      (scan .between rest).map (.quoted (some (String.ofList cs)) :: ·) := by
  simp only [quote, List.cons_append, List.append_assoc]
  exact scan_escaped cs [] rest

end Quoted

/-! ## Words -/

section Words

/-- A character that can stand in a word. -/
def isWordChar (c : Char) : Bool :=
  !isSpace c && c != '"' && (ofMark c).isNone

/-- What ends a word that stands in front of it. -/
def EndsWord (rest : List Char) : Prop :=
  ∀ c ∈ rest.head?, isWordChar c = false

lemma scan_word_end {rest : List Char} (h : EndsWord rest) (w : List Char) :
    scan (.word w) rest = (scan .between rest).map (.word w.reverse :: ·) := by
  cases rest with
  | nil => rfl
  | cons c rest =>
    have hc : isWordChar c = false := h c rfl
    by_cases hspace : isSpace c
    · simp [scan, hspace]
    by_cases hquote : c = '"'
    · subst hquote
      rfl
    cases hmark : ofMark c with
    | none => simp [isWordChar, hspace, hquote, hmark] at hc
    | some t => simp [scan, hspace, hquote, hmark, Function.comp_def]

lemma scan_word_append {w : List Char} (hw : w.all isWordChar) (read rest : List Char) :
    scan (.word read) (w ++ rest) = scan (.word (w.reverse ++ read)) rest := by
  induction w generalizing read with
  | nil => rfl
  | cons c w ih =>
    obtain ⟨hc, hw⟩ : isWordChar c ∧ w.all isWordChar := by simpa using hw
    simp only [isWordChar, Bool.and_eq_true, Bool.not_eq_true', bne_iff_ne,
      Option.isNone_iff_eq_none] at hc
    obtain ⟨⟨hspace, hquote⟩, hmark⟩ := hc
    simp [scan, hspace, hquote, hmark, ih hw]

/-- A word is read up to its end. -/
lemma scan_word {w rest : List Char} (hne : w ≠ []) (hw : w.all isWordChar) (h : EndsWord rest) :
    scan .between (w ++ rest) = (scan .between rest).map (.word w :: ·) := by
  obtain ⟨c, w, rfl⟩ := List.exists_cons_of_ne_nil hne
  obtain ⟨hc, hw⟩ : isWordChar c ∧ w.all isWordChar := by simpa using hw
  simp only [isWordChar, Bool.and_eq_true, Bool.not_eq_true', bne_iff_ne,
    Option.isNone_iff_eq_none] at hc
  obtain ⟨⟨hspace, hquote⟩, hmark⟩ := hc
  have hstart : scan .between (c :: w ++ rest) = scan (.word [c]) (w ++ rest) := by
    simp [scan, hspace, hquote, hmark]
  rw [hstart, scan_word_append hw, scan_word_end h]
  simp

lemma scan_mark {c : Char} {t : Token} (h : ofMark c = some t) (hspace : isSpace c = false)
    (hquote : c ≠ '"') (rest : List Char) :
    scan .between (c :: rest) = (scan .between rest).map (t :: ·) := by
  simp [scan, hspace, hquote, h]

end Words

/-! ## The tokens of a value -/

lemma all_items {p : Json → Bool} {x : Json} {xs : List Json} (h : allItems p (x :: xs)) :
    x.all p ∧ allItems p xs := by
  simpa [allItems] using h

lemma all_fields {p : Json → Bool} (name : String) {x : Json} {fs : List (String × Json)}
    (h : allFields p ((name, x) :: fs)) : x.all p ∧ allFields p fs := by
  simpa [allFields] using h

/-- A value that is no number and can be read. -/
def isPlain : Json → Bool
  | .integer _ => false
  | .real _ => false
  | .unreadable => false
  | _ => true

mutual

/-- The tokens that a value is written as. -/
def tokensOf : Json → List Token
  | .null => [.word nullText]
  | .bool b => [.word (boolText b)]
  | .integer n => [.word (integerText n)]
  | .real cs => [.word cs]
  | .text s => [.quoted (some s)]
  | .array [] => [.openBracket, .closeBracket]
  | .array (x :: xs) => .openBracket :: (tokensOf x ++ itemTokens xs)
  | .object [] => [.openBrace, .closeBrace]
  | .object ((name, x) :: fs) =>
    .openBrace :: .quoted (some name) :: .colon :: (tokensOf x ++ fieldTokens fs)
  | .unreadable => [.word nullText]

/-- The tokens of the elements of an array after the first one, and of its end. -/
def itemTokens : List Json → List Token
  | [] => [.closeBracket]
  | x :: xs => .comma :: (tokensOf x ++ itemTokens xs)

/-- The tokens of the fields of an object after the first one, and of its end. -/
def fieldTokens : List (String × Json) → List Token
  | [] => [.closeBrace]
  | (name, x) :: fs => .comma :: .quoted (some name) :: .colon :: (tokensOf x ++ fieldTokens fs)

end

lemma endsWord_cons {c : Char} (h : isWordChar c = false) (rest : List Char) :
    EndsWord (c :: rest) := by
  rintro c' ⟨⟩
  exact h

lemma endsWord_renderItems (xs : List Json) (rest : List Char) :
    EndsWord (renderItems xs ++ rest) := by
  cases xs with
  | nil => exact endsWord_cons (by decide) _
  | cons x xs =>
    rw [renderItems]
    exact endsWord_cons (by decide) _

lemma endsWord_renderFields (fs : List (String × Json)) (rest : List Char) :
    EndsWord (renderFields fs ++ rest) := by
  cases fs with
  | nil => exact endsWord_cons (by decide) _
  | cons f fs =>
    rw [renderFields]
    exact endsWord_cons (by decide) _

mutual

/-- A text that starts with a value starts with its tokens. -/
theorem scan_render {rest : List Char} (hrest : EndsWord rest) :
    ∀ j : Json, j.all isPlain → scan .between (render j ++ rest) =
      (scan .between rest).map (tokensOf j ++ ·)
  | .null, _ => scan_word (by decide) (by decide) hrest
  | .bool true, _ => scan_word (by decide) (by decide) hrest
  | .bool false, _ => scan_word (by decide) (by decide) hrest
  | .integer n, h => by simp [Json.all, isPlain] at h
  | .real cs, h => by simp [Json.all, isPlain] at h
  | .unreadable, h => by simp [Json.all, isPlain] at h
  | .text s, _ => by
    rw [render, scan_quote, String.ofList_toList]
    rfl
  | .array [], _ => by
    simp only [render, tokensOf, List.cons_append, List.nil_append]
    rw [scan_mark (c := '[') rfl rfl (by decide), scan_mark (c := ']') rfl rfl (by decide)]
    simp [Function.comp_def]
  | .object [], _ => by
    simp only [render, tokensOf, List.cons_append, List.nil_append]
    rw [scan_mark (c := '\x7b') rfl rfl (by decide), scan_mark (c := '\x7d') rfl rfl (by decide)]
    simp [Function.comp_def]
  | .array (x :: xs), h => by
    obtain ⟨hx, hxs⟩ := all_items h
    simp only [render, tokensOf, List.cons_append, List.append_assoc]
    rw [scan_mark (c := '[') rfl rfl (by decide), scan_render (endsWord_renderItems xs rest) x hx,
      scan_renderItems rest xs hxs]
    simp [Function.comp_def]
  | .object ((name, x) :: fs), h => by
    obtain ⟨hx, hfs⟩ := all_fields name h
    simp only [render, tokensOf, List.cons_append, List.append_assoc]
    rw [scan_mark (c := '\x7b') rfl rfl (by decide), scan_quote,
      scan_mark (c := ':') rfl rfl (by decide), scan_render (endsWord_renderFields fs rest) x hx,
      scan_renderFields rest fs hfs]
    simp [Function.comp_def]

theorem scan_renderItems (rest : List Char) :
    ∀ xs : List Json, allItems isPlain xs → scan .between (renderItems xs ++ rest) =
      (scan .between rest).map (itemTokens xs ++ ·)
  | [], _ => scan_mark rfl rfl (by decide) rest
  | x :: xs, h => by
    obtain ⟨hx, hxs⟩ := all_items h
    simp only [renderItems, itemTokens, List.cons_append, List.append_assoc]
    rw [scan_mark (c := ',') rfl rfl (by decide), scan_render (endsWord_renderItems xs rest) x hx,
      scan_renderItems rest xs hxs]
    simp [Function.comp_def]

theorem scan_renderFields (rest : List Char) :
    ∀ fs : List (String × Json), allFields isPlain fs → scan .between (renderFields fs ++ rest) =
      (scan .between rest).map (fieldTokens fs ++ ·)
  | [], _ => scan_mark rfl rfl (by decide) rest
  | (name, x) :: fs, h => by
    obtain ⟨hx, hfs⟩ := all_fields name h
    simp only [renderFields, fieldTokens, List.cons_append, List.append_assoc]
    rw [scan_mark (c := ',') rfl rfl (by decide), scan_quote,
      scan_mark (c := ':') rfl rfl (by decide), scan_render (endsWord_renderFields fs rest) x hx,
      scan_renderFields rest fs hfs]
    simp [Function.comp_def]

end

/-! ## The value of tokens -/

section Build

lemma ofWord_nullText : ofWord nullText = some .null := rfl

lemma ofWord_boolText (b : Bool) : ofWord (boolText b) = some (.bool b) := by
  cases b <;> rfl

/-- Behind an opening bracket stands what may stand behind a comma, unless it is the end. -/
lemma build_first (stack : List Frame) (ts : List Token) (j : Json) :
    build (.items [] :: stack) .first (tokensOf j ++ ts) =
      build (.items [] :: stack) .value (tokensOf j ++ ts) := by
  rcases j with _ | b | n | cs | s | (_ | ⟨x, xs⟩) | (_ | ⟨⟨name, x⟩, fs⟩) | _ <;>
    simp [tokensOf, build]

lemma ofFields_map_some (fs : List (String × Json)) :
    ofFields (fs.map fun f => (some f.1, f.2)) = .object fs := by
  have hnames : (fs.map fun f => (some f.1, f.2)).mapM
      (fun f : Field => f.1.map (·, f.2)) = some fs := by
    induction fs with
    | nil => rfl
    | cons f fs ih => simp [ih]
  rw [ofFields, hnames]

mutual

/-- The reader builds a value from its tokens, whatever is open and whatever follows. -/
theorem build_tokensOf (stack : List Frame) (ts : List Token) :
    ∀ j : Json, j.all isPlain → build stack .value (tokensOf j ++ ts) = build stack (.after j) ts
  | .null, _ => by simp [tokensOf, build, ofWord_nullText]
  | .bool b, _ => by simp [tokensOf, build, ofWord_boolText]
  | .integer n, h => by simp [Json.all, isPlain] at h
  | .real cs, h => by simp [Json.all, isPlain] at h
  | .unreadable, h => by simp [Json.all, isPlain] at h
  | .text s, _ => by simp [tokensOf, build, ofQuoted]
  | .array [], _ => by simp [tokensOf, build]
  | .object [], _ => by simp [tokensOf, build]
  | .array (x :: xs), h => by
    obtain ⟨hx, hxs⟩ := all_items h
    calc build stack .value (tokensOf (.array (x :: xs)) ++ ts)
        = build (.items [] :: stack) .first (tokensOf x ++ (itemTokens xs ++ ts)) := by
          rw [tokensOf, List.cons_append, List.append_assoc, build]
      _ = build (.items [] :: stack) (.after x) (itemTokens xs ++ ts) := by
          rw [build_first, build_tokensOf _ _ x hx]
      _ = build stack (.after (.array (x :: xs))) ts := build_itemTokens stack ts [] x xs hxs
  | .object ((name, x) :: fs), h => by
    obtain ⟨hx, hfs⟩ := all_fields name h
    calc build stack .value (tokensOf (.object ((name, x) :: fs)) ++ ts)
        = build (.fields [] (some name) :: stack) .value
            (tokensOf x ++ (fieldTokens fs ++ ts)) := by
          simp only [tokensOf, List.cons_append, List.append_assoc, build]
      _ = build (.fields [] (some name) :: stack) (.after x) (fieldTokens fs ++ ts) :=
          build_tokensOf _ _ x hx
      _ = build stack (.after (.object ((name, x) :: fs))) ts :=
          build_fieldTokens stack ts [] name x fs hfs

theorem build_itemTokens (stack : List Frame) (ts : List Token) (done : List Json) (v : Json) :
    ∀ xs : List Json, allItems isPlain xs →
      build (.items done :: stack) (.after v) (itemTokens xs ++ ts) =
        build stack (.after (.array (done.reverse ++ v :: xs))) ts
  | [], _ => by simp [itemTokens, build]
  | x :: xs, h => by
    obtain ⟨hx, hxs⟩ := all_items h
    calc build (.items done :: stack) (.after v) (itemTokens (x :: xs) ++ ts)
        = build (.items (v :: done) :: stack) .value (tokensOf x ++ (itemTokens xs ++ ts)) := by
          rw [itemTokens, List.cons_append, List.append_assoc, build]
      _ = build (.items (v :: done) :: stack) (.after x) (itemTokens xs ++ ts) :=
          build_tokensOf _ _ x hx
      _ = build stack (.after (.array (done.reverse ++ v :: x :: xs))) ts := by
          rw [build_itemTokens stack ts (v :: done) x xs hxs]
          simp

theorem build_fieldTokens (stack : List Frame) (ts : List Token) (done : List (String × Json))
    (name : String) (v : Json) :
    ∀ fs : List (String × Json), allFields isPlain fs →
      build (.fields (done.map fun f => (some f.1, f.2)) (some name) :: stack) (.after v)
          (fieldTokens fs ++ ts) =
        build stack (.after (.object (done.reverse ++ (name, v) :: fs))) ts
  | [], _ => by
    have hfields := ofFields_map_some (done.reverse ++ [(name, v)])
    simp only [List.map_append, List.map_reverse, List.map_cons, List.map_nil] at hfields
    simp [fieldTokens, build, hfields]
  | (next, x) :: fs, h => by
    obtain ⟨hx, hfs⟩ := all_fields next h
    calc build (.fields (done.map fun f => (some f.1, f.2)) (some name) :: stack) (.after v)
          (fieldTokens ((next, x) :: fs) ++ ts)
        = build (.fields (((name, v) :: done).map fun f => (some f.1, f.2)) (some next) :: stack)
            .value (tokensOf x ++ (fieldTokens fs ++ ts)) := by
          simp only [fieldTokens, List.cons_append, List.append_assoc, build, List.map_cons]
      _ = build (.fields (((name, v) :: done).map fun f => (some f.1, f.2)) (some next) :: stack)
            (.after x) (fieldTokens fs ++ ts) := build_tokensOf _ _ x hx
      _ = build stack (.after (.object (done.reverse ++ (name, v) :: (next, x) :: fs))) ts := by
          rw [build_fieldTokens stack ts ((name, v) :: done) next x fs hfs]
          simp

end

end Build

/-! ## The characters of a text -/

section Printable

/-- A text on one line: it contains no control character. -/
def IsPrintable (cs : List Char) : Prop :=
  ∀ c ∈ cs, 0x20 ≤ c.toNat

instance (cs : List Char) : Decidable (IsPrintable cs) :=
  decidable_of_iff (cs.all (0x20 ≤ ·.toNat) = true) (by simp [IsPrintable])

lemma IsPrintable.append {cs ds : List Char} (hc : IsPrintable cs) (hd : IsPrintable ds) :
    IsPrintable (cs ++ ds) :=
  List.forall_mem_append.mpr ⟨hc, hd⟩

lemma IsPrintable.cons {c : Char} {cs : List Char} (hc : 0x20 ≤ c.toNat) (hcs : IsPrintable cs) :
    IsPrintable (c :: cs) :=
  List.forall_mem_cons.mpr ⟨hc, hcs⟩

lemma isPrintable_escapeChar (c : Char) : IsPrintable (escapeChar c) := by
  have hhex : ∀ n < 16, 0x20 ≤ (hexDigit n).toNat := by decide
  rw [escapeChar]
  split_ifs with hquote hback hb hf hn hr ht hcontrol <;> try decide
  · have hdiv := hhex (c.toNat / 16) (by omega)
    have hmod := hhex (c.toNat % 16) (by omega)
    simp [IsPrintable, hdiv, hmod]
  · simpa [IsPrintable] using hcontrol

lemma isPrintable_quote (cs : List Char) : IsPrintable (quote cs) := by
  refine .append (.cons (by decide) ?_) (.cons (by decide) (by rintro c ⟨⟩))
  intro c hc
  obtain ⟨d, -, hd⟩ := List.mem_flatMap.mp hc
  exact isPrintable_escapeChar d c hd

mutual

/-- A value is written on one line. -/
theorem isPrintable_render : ∀ j : Json, j.all isPlain → IsPrintable (render j)
  | .null, _ => by decide
  | .bool true, _ => by decide
  | .bool false, _ => by decide
  | .integer n, h => by simp [Json.all, isPlain] at h
  | .real cs, h => by simp [Json.all, isPlain] at h
  | .unreadable, h => by simp [Json.all, isPlain] at h
  | .text s, _ => isPrintable_quote s.toList
  | .array [], _ => by decide
  | .object [], _ => by decide
  | .array (x :: xs), h => by
    obtain ⟨hx, hxs⟩ := all_items h
    exact .cons (by decide) ((isPrintable_render x hx).append (isPrintable_renderItems xs hxs))
  | .object ((name, x) :: fs), h => by
    obtain ⟨hx, hfs⟩ := all_fields name h
    exact .cons (by decide) ((isPrintable_quote _).append (.cons (by decide)
      ((isPrintable_render x hx).append (isPrintable_renderFields fs hfs))))

theorem isPrintable_renderItems :
    ∀ xs : List Json, allItems isPlain xs → IsPrintable (renderItems xs)
  | [], _ => by decide
  | x :: xs, h => by
    obtain ⟨hx, hxs⟩ := all_items h
    exact .cons (by decide) ((isPrintable_render x hx).append (isPrintable_renderItems xs hxs))

theorem isPrintable_renderFields :
    ∀ fs : List (String × Json), allFields isPlain fs → IsPrintable (renderFields fs)
  | [], _ => by decide
  | (name, x) :: fs, h => by
    obtain ⟨hx, hfs⟩ := all_fields name h
    exact .cons (by decide) ((isPrintable_quote _).append (.cons (by decide)
      ((isPrintable_render x hx).append (isPrintable_renderFields fs hfs))))

end

end Printable

/-! ## Reading what was written -/

/-- A value is read off its text. -/
theorem read_render {j : Json} (h : j.all isPlain) : read (render j) = some j := by
  have hend : EndsWord [] := by
    rintro c ⟨⟩
  have hscan := scan_render hend j h
  rw [List.append_nil] at hscan
  rw [read, tokens, hscan]
  have hbuild := build_tokensOf [] [] j h
  rw [List.append_nil] at hbuild
  simp [scan, hbuild, build]

lemma scan_append_return (m : Token.Mode) (cs : List Char) : scan m (cs ++ ['\r']) = scan m cs := by
  induction cs generalizing m with
  | nil =>
    -- it is white space between tokens, and no literal may contain it
    cases m <;> rfl
  | cons c cs ih =>
    rw [List.cons_append]
    cases m <;> simp only [scan, ih]

/-- A carriage return behind a text changes nothing. -/
theorem read_append_return (cs : List Char) : read (cs ++ ['\r']) = read cs := by
  rw [read, tokens, scan_append_return, read, tokens]

end BuildLens.Json
