/-
The places of anchors.

A needle stands at a place of a file if the bytes from there on start with it.  The function is
found at the first place of its needle, and the line at the first place of its own from the end of
that one on (`Locate.locate_first`); neither needle is empty, and the second search starts within
the file.  In a file that is text the line of the cursor, as a terminal reads it, contains what was
found there.  Whether the name of a function stands there as a whole name makes no difference to the
search (`Locate.locate_wholeName`).
-/
import BuildLens.Proofs.Rows
import BuildLens.Terminal

namespace BuildLens.Locate

open BuildLens.Text
open BuildLens.Text.Utf8

/-! ## First places -/

/-- A needle stands at a place of a file. -/
def StandsAt (needle : List Char) (bs : Bytes) (place : Nat) : Prop :=
  encode needle <+: bs.drop place

/-- The first place from a start on at which a needle stands, if there is a needle and it stands
anywhere there. -/
def IsFirst (needle : Option (List Char)) (bs : Bytes) (start : Nat) : Option Nat → Prop
  | none => ∀ n ∈ needle, ∀ place, start ≤ place → ¬ StandsAt n bs place
  | some first => ∃ n ∈ needle, start ≤ first ∧ StandsAt n bs first ∧
      ∀ place, start ≤ place → StandsAt n bs place → first ≤ place

/-- The end of a needle at a place, or the start of the file if there is none. -/
def behind (needle : Option (List Char)) (place : Option Nat) : Nat :=
  match needle, place with
  | some n, some place => place + (encode n).length
  | _, _ => 0

section

variable {n : List Char} {bs : Bytes} {start place : Nat}

lemma StandsAt.split (h : StandsAt n bs place) (hstart : start ≤ place) :
    ∃ s t, bs.drop start = s ++ (encode n ++ t) ∧ s.length ≤ place - start := by
  obtain ⟨t, ht⟩ := h
  refine ⟨(bs.drop start).take (place - start), t, ?_, List.length_take_le _ _⟩
  have hdrop : (bs.drop start).drop (place - start) = encode n ++ t := by
    rw [List.drop_drop, ht]
    congr 1
    omega
  rw [← hdrop, List.take_append_drop]

/-- The search from a start on finds the first place. -/
lemma isFirst_find? (n : List Char) (bs : Bytes) (start : Nat) :
    IsFirst (some n) bs start ((find? (encode n) (bs.drop start)).map (start + ·)) := by
  cases hfind : find? (encode n) (bs.drop start) with
  | none =>
    rintro n ⟨⟩ place hstart h
    obtain ⟨s, t, hsplit, -⟩ := h.split hstart
    exact find?_eq_none_iff.mp hfind s t hsplit
  | some k =>
    obtain ⟨s, t, hsplit, rfl, hfirst⟩ := find?_eq_some_iff.mp hfind
    refine ⟨n, rfl, Nat.le_add_right _ _, ?_, fun place hstart h => ?_⟩
    · rw [StandsAt, ← List.drop_drop, hsplit, List.drop_left]
      exact List.prefix_append _ _
    · obtain ⟨s', t', hsplit', hle⟩ := h.split hstart
      have hmin := hfirst s' t' hsplit'
      dsimp only
      omega

end

section Anchors

variable {mode : Mode} {bs : Bytes} {signature : List Char} {line : Option (List Char)}

/-- The function is found at the first place of its needle, and ends within the file. -/
lemma functionAnchor_first (mode : Mode) (bs : Bytes) (signature : List Char) :
    let f := (functionAnchor mode bs signature).map Prod.fst
    IsFirst (functionNeedle mode signature) bs 0 f ∧
      ((functionAnchor mode bs signature).map Prod.snd).getD 0 =
        behind (functionNeedle mode signature) f ∧
      behind (functionNeedle mode signature) f ≤ bs.length := by
  cases hneedle : functionNeedle mode signature with
  | none => simp [functionAnchor, hneedle, IsFirst, behind]
  | some n =>
    have hfirst := isFirst_find? n bs 0
    rw [List.drop_zero] at hfirst
    simp only [functionAnchor, hneedle]
    cases hfind : find? (encode n) bs with
    | none =>
      rw [hfind] at hfirst
      exact ⟨hfirst, rfl, Nat.zero_le _⟩
    | some place =>
      rw [hfind] at hfirst
      simp only [Option.map_some, Nat.zero_add] at hfirst ⊢
      exact ⟨hfirst, rfl, le_length_of_find? hfind⟩

lemma lineAnchor_first (bs : Bytes) (start : Nat) (line : Option (List Char)) :
    IsFirst (lineNeedle line) bs start (lineAnchor bs start line) := by
  cases hneedle : lineNeedle line with
  | none => simp [lineAnchor, hneedle, IsFirst]
  | some n =>
    simp only [lineAnchor, hneedle]
    exact isFirst_find? n bs start

/-- What stands at the place that was found, if anything was. -/
def winner (mode : Mode) (signature : List Char) (line : Option (List Char)) (found : Location) :
    Option (List Char) :=
  if found.lineAnchorFound then lineNeedle line
  else if found.functionAnchorFound then functionNeedle mode signature
  else none

/-- The location by the first places of both needles. -/
lemma locate_places (mode : Mode) (bs : Bytes) (signature : List Char)
    (line : Option (List Char)) :
    ∃ f l, IsFirst (functionNeedle mode signature) bs 0 f ∧
      behind (functionNeedle mode signature) f ≤ bs.length ∧
      IsFirst (lineNeedle line) bs (behind (functionNeedle mode signature) f) l ∧
      locate mode bs signature line =
        ⟨f.isSome, l.isSome, (l.or f).getD 0, lineAt bs ((l.or f).getD 0)⟩ := by
  obtain ⟨hfunction, hbehind, hle⟩ := functionAnchor_first mode bs signature
  refine ⟨_, _, hfunction, hle, lineAnchor_first bs _ line, ?_⟩
  simp only [locate, hbehind, Option.isSome_map]
  cases lineAnchor bs (behind (functionNeedle mode signature)
    ((functionAnchor mode bs signature).map Prod.fst)) line <;> rfl

/-- The cursor stands where the winner stands. -/
lemma winner_standsAt {n : List Char}
    (h : winner mode signature line (locate mode bs signature line) = some n) :
    StandsAt n bs (locate mode bs signature line).cursorOffset := by
  obtain ⟨f, l, hfunction, -, hline, heq⟩ := locate_places mode bs signature line
  rw [heq] at h ⊢
  cases l with
  | some l =>
    obtain ⟨n', hn', -, hstands, -⟩ := hline
    obtain rfl : n' = n := Option.some.inj (hn'.symm.trans h)
    exact hstands
  | none =>
    cases f with
    | some f =>
      obtain ⟨n', hn', -, hstands, -⟩ := hfunction
      obtain rfl : n' = n := Option.some.inj (hn'.symm.trans h)
      exact hstands
    | none => exact absurd h (by simp [winner])

lemma InRow.of_winner {found : Location} {n : List Char}
    (h : winner mode signature line found = some n) (hnewline : '\n' ∉ n) : InRow (encode n) := by
  rw [winner] at h
  split_ifs at h
  · exact .of_lineNeedle h hnewline
  · exact .of_functionNeedle h hnewline

/-- No needle is empty.  The function is found at the first place of its needle, and the line at the
first place of its own behind that, which still lies within the file; the cursor is at the place of
the line if it was found, else at that of the function if that was, and else at the start of the
file.  If the file is text, and what was found contains no line feed, then it is in the line of the
cursor, as a terminal reads that. -/
theorem locate_first (mode : Mode) (artifact : Bytes) (signature : List Char)
    (line : Option (List Char)) :
    let found := locate mode artifact signature line
    (∀ n ∈ functionNeedle mode signature, n ≠ []) ∧ (∀ n ∈ lineNeedle line, n ≠ []) ∧
    (∃ f l, IsFirst (functionNeedle mode signature) artifact 0 f ∧
      behind (functionNeedle mode signature) f ≤ artifact.length ∧
      IsFirst (lineNeedle line) artifact (behind (functionNeedle mode signature) f) l ∧
      found.functionAnchorFound = f.isSome ∧ found.lineAnchorFound = l.isSome ∧
      found.cursorOffset = (l.or f).getD 0 ∧ found.cursorOffset ≤ artifact.length) ∧
    (WellFormed artifact → ∀ n ∈ winner mode signature line found, '\n' ∉ n →
      ∀ (t : FileTree) (path : String), t.read path = .ok artifact →
        ∃ text, Terminal.lineText t path found.cursorLine = .ok (some text) ∧
          n <:+: text.toList) := by
  refine ⟨fun n hn => (functionNeedle_spec hn).1, fun n hn => (lineNeedle_spec hn).1, ?_, ?_⟩
  · have hle := locate_le_length mode artifact signature line
    obtain ⟨f, l, hfunction, hbehind, hline, heq⟩ := locate_places mode artifact signature line
    rw [heq] at hle ⊢
    exact ⟨f, l, hfunction, hbehind, hline, rfl, rfl, rfl, hle⟩
  · rintro ⟨cs, rfl⟩ n hn hnewline t path hread
    obtain ⟨u, hu⟩ := winner_standsAt hn
    have hsplit : encode cs = (encode cs).take (locate mode (encode cs) signature line).cursorOffset
        ++ (encode n ++ u) := by
      rw [hu, List.take_append_drop]
    obtain ⟨l, hl, hinfix⟩ := (InRow.of_winner hn hnewline).exists_line hsplit
    refine ⟨String.ofList l, ?_, by rwa [String.toList_ofList]⟩
    have hline : (locate mode (encode cs) signature line).cursorLine = lineAt (encode cs)
        (locate mode (encode cs) signature line).cursorOffset := rfl
    rw [hline, lineAt, Terminal.lineText, if_neg (Nat.succ_ne_zero _), hread]
    simp [hl]

end Anchors

/-- A listing with carriage returns and a character beyond ASCII. -/
def dosListing : Bytes :=
  bytesOf "; 3 : // caf\u00e9\r\n?f@@YAXXZ PROC ; f, COMDAT\r\n; 4 : x = compute(y);\r\n"

/-- The line of the cursor in that listing is that of the code. -/
theorem locate_first_of_dosListing :
    let t : FileTree := { root := .directory [("f.asm", .file { content := dosListing })] }
    t.read "f.asm" = .ok dosListing ∧
      (locate .assembly dosListing "f".toList (some "  x = compute(y);\r".toList)).cursorLine = 3 ∧
      ∃ text, Terminal.lineText t "f.asm" 3 = .ok (some text) ∧
        "x = compute(y);".toList <:+: text.toList := by
  intro t
  have hread : t.read "f.asm" = .ok dosListing := by decide +kernel
  have hline : (locate .assembly dosListing "f".toList
      (some "  x = compute(y);\r".toList)).cursorLine = 3 := by decide +kernel
  obtain ⟨-, -, -, hshown⟩ := locate_first .assembly dosListing "f".toList
    (some "  x = compute(y);\r".toList)
  obtain ⟨text, htext, hinfix⟩ := hshown ⟨_, rfl⟩ "x = compute(y);".toList (by decide +kernel)
    (by decide) t "f.asm" hread
  rw [hline] at htext
  exact ⟨hread, hline, text, htext, hinfix⟩

/-! ## Whole names -/

/-- What is searched for to find a function whose name is no template. -/
def plainNeedle (mode : Mode) (name : List Char) : List Char :=
  match mode with
  | .assembly => procedureMarker ++ name
  | .preprocessed => name ++ callMarker

/-- On the side that its marker leaves open no byte of a name follows a needle: behind it in a
listing, in front of it in preprocessed source. -/
def Closed (isName : UInt8 → Bool) (mode : Mode) (needle : List Char) (bs : Bytes)
    (place : Nat) : Prop :=
  match mode with
  | .assembly => ∀ b ∈ (bs.drop (place + (encode needle).length)).head?, isName b = false
  | .preprocessed => ∀ b ∈ (bs.take place).getLast?, isName b = false

/-- The first place at which a needle stands as a whole name. -/
structure IsFirstWhole (isName : UInt8 → Bool) (mode : Mode) (needle : List Char) (bs : Bytes)
    (whole : Nat) : Prop where
  stands : StandsAt needle bs whole
  closed : Closed isName mode needle bs whole
  first : ∀ place < whole, StandsAt needle bs place → ¬ Closed isName mode needle bs place

section WholeNames

variable {mode : Mode} {bs : Bytes} {name : List Char}

/-- A name without white space and without template parameters is searched for as it is. -/
lemma functionNeedle_plain (mode : Mode) (hne : name ≠ [])
    (hplain : ∀ c ∈ name, isWhite c = false ∧ c ≠ templateMarker) :
    functionNeedle mode name = some (plainNeedle mode name) := by
  have htrim : trim name = name :=
    trim_eq_self (fun c hc => (hplain c (List.mem_of_mem_head? hc)).1)
      (fun c hc => (hplain c (List.mem_of_getLast? hc)).1)
  have hname : name.takeWhile (· != templateMarker) = name :=
    List.takeWhile_eq_self_iff.mpr fun c hc => by simpa using (hplain c hc).2
  have hnormal : normalize (trim name) = name := by simp [normalize, htrim, hname]
  have hlast : name.getLast? ≠ some templateMarker := fun h =>
    (hplain _ (List.mem_of_getLast? h)).2 rfl
  cases mode <;> simp [functionNeedle, hnormal, hne, hlast, plainNeedle]

/-- The marker of a mode guards one side of a name only.  So a function is found at the first place
of its name, be it a whole name or a part of a longer one.  That is the first place where it is a
whole name, unless it stands further in front as a part of a longer name. -/
theorem locate_wholeName (isName : UInt8 → Bool) (mode : Mode) (artifact : Bytes)
    (hne : name ≠ []) (hplain : ∀ c ∈ name, isWhite c = false ∧ c ≠ templateMarker) :
    let n := plainNeedle mode name
    let found := locate mode artifact name none
    functionNeedle mode name = some n ∧ found.lineAnchorFound = false ∧
    (found.functionAnchorFound = true ↔ ∃ place, StandsAt n artifact place) ∧
    (found.functionAnchorFound = true → IsFirst (some n) artifact 0 (some found.cursorOffset)) ∧
    ∀ whole, IsFirstWhole isName mode n artifact whole →
      found.functionAnchorFound = true ∧
      (found.cursorOffset = whole ∨ found.cursorOffset < whole ∧
        StandsAt n artifact found.cursorOffset ∧
        ¬ Closed isName mode n artifact found.cursorOffset) ∧
      (found.cursorOffset = whole ↔ ∀ place < whole, ¬ StandsAt n artifact place) := by
  intro n found
  have hneedle : functionNeedle mode name = some n := functionNeedle_plain mode hne hplain
  obtain ⟨f, l, hfunction, -, hline, heq⟩ := locate_places mode artifact name none
  obtain rfl : l = none := by
    cases l with
    | none => rfl
    | some l =>
      obtain ⟨_, hn, -⟩ := hline
      exact absurd hn (by simp [lineNeedle])
  rw [hneedle] at hfunction
  refine ⟨hneedle, by simp [found, heq], ?_⟩
  cases f with
  | none =>
    have hnowhere : ∀ place, ¬ StandsAt n artifact place := fun place =>
      hfunction n rfl place (Nat.zero_le place)
    have hfound : found.functionAnchorFound = false := by simp [found, heq]
    refine ⟨by simp [hfound, hnowhere], by simp [hfound], fun whole h => ?_⟩
    exact absurd h.stands (hnowhere whole)
  | some first =>
    have hoffset : found.cursorOffset = first := by simp [found, heq]
    have hfound : found.functionAnchorFound = true := by simp [found, heq]
    obtain ⟨_, ⟨⟩, -, hstands, hmin⟩ := id hfunction
    rw [hoffset]
    refine ⟨⟨fun _ => ⟨first, hstands⟩, fun _ => hfound⟩, fun _ => hfunction, fun whole h => ?_⟩
    have hle : first ≤ whole := hmin whole (Nat.zero_le whole) h.stands
    refine ⟨hfound, ?_, ?_⟩
    · rcases Nat.eq_or_lt_of_le hle with heq | hlt
      · exact .inl heq
      · exact .inr ⟨hlt, hstands, h.first first hlt hstands⟩
    · constructor
      · rintro rfl place hlt hplace
        exact absurd (hmin place (Nat.zero_le place) hplace) (Nat.not_le_of_lt hlt)
      · intro hnone
        exact Nat.le_antisymm hle (Nat.le_of_not_lt fun hlt => hnone first hlt hstands)

end WholeNames

instance (needle : List Char) (bs : Bytes) (place : Nat) : Decidable (StandsAt needle bs place) :=
  inferInstanceAs (Decidable (encode needle <+: bs.drop place))

instance (isName : UInt8 → Bool) (mode : Mode) (needle : List Char) (bs : Bytes) (place : Nat) :
    Decidable (Closed isName mode needle bs place) :=
  match mode with
  | .assembly =>
    decidable_of_iff ((bs.drop (place + (encode needle).length)).head?.all (!isName ·) = true)
      (by simp [Closed, Option.all_eq_true])
  | .preprocessed =>
    decidable_of_iff ((bs.take place).getLast?.all (!isName ·) = true)
      (by simp [Closed, Option.all_eq_true])

/-- The letters, the digits and the underscore. -/
def isIdentifierByte (b : UInt8) : Bool :=
  (0x30 ≤ b && b ≤ 0x39) || (0x41 ≤ b && b ≤ 0x5A) || (0x61 ≤ b && b ≤ 0x7A) || b == 0x5F

/-- A listing in which a function stands behind one with a longer name. -/
def crowdedListing : Bytes :=
  bytesOf "?foobar@@YAXXZ PROC ; foobar, COMDAT\n?foo@@YAXXZ PROC ; foo, COMDAT\n"

/-- In that listing the function with the longer name is found as the one that was asked for. -/
theorem longer_name_found :
    IsFirstWhole isIdentifierByte .assembly (plainNeedle .assembly "foo".toList) crowdedListing 49 ∧
      (locate .assembly crowdedListing "foo".toList none).cursorOffset = 15 :=
  ⟨⟨by decide +kernel, by decide +kernel, by decide +kernel⟩, by decide +kernel⟩

/-- The function with the longer name is found where it stands as a whole name. -/
theorem locate_wholeName_of_crowdedListing :
    (locate .assembly crowdedListing "foobar".toList none).functionAnchorFound = true ∧
      (locate .assembly crowdedListing "foobar".toList none).cursorOffset = 15 := by
  obtain ⟨-, -, -, -, hwhole⟩ := locate_wholeName isIdentifierByte .assembly crowdedListing
    (show "foobar".toList ≠ [] by decide) (List.forall_iff_forall_mem.mp (by decide))
  obtain ⟨hfound, -, hoffset⟩ :=
    hwhole 15 ⟨by decide +kernel, by decide +kernel, by decide +kernel⟩
  exact ⟨hfound, hoffset.mpr (by decide +kernel)⟩

end BuildLens.Locate
