/-
Rendered remarks.

A compiler writes a remark as a line of its own: the number of a project, the path of a file, the
number of a line in parentheses, a colon and a phrase, with gaps in between.  `Line` describes
such lines, and the other ones of build output, in which the word `info` does not occur.

Extraction undoes this (`extract_rendered`): from a text that is made of such lines exactly the
diagnostics are extracted that its lines render.  The search goes along a line as follows.

* `scan_path`: it gathers the path, and drops what stands in front of a drive;
* `scan_remark`: at the colon behind the number it finds the remark, up to the end of the phrase;
* `diagnostic_rendered`: the location of the remark is taken apart again.
-/
import Mathlib.Data.List.ReduceOption
import BuildLens.Proofs.Remark.Separation
import BuildLens.Proofs.Text.Trimming

namespace BuildLens.Remark

open BuildLens.Text

/-! ## Lines of build output -/

/-- The characters that stand in no path.  A colon may stand behind a drive only. -/
def unfit : List Char :=
  [':', '<', '>', '|', '"', '\r', '\n']

/-- A path without a drive.  It neither starts nor ends with white space. -/
@[mk_iff]
structure Bare (p : List Char) : Prop where
  fit : ∀ c ∈ p, c ∉ unfit
  nonempty : p ≠ []
  first : ∀ c ∈ p.head?, isWhite c = false
  last : ∀ c ∈ p.getLast?, isWhite c = false

instance (p : List Char) : Decidable (Bare p) :=
  decidable_of_iff
    (p.all (fun c => !unfit.contains c) = true ∧ p ≠ [] ∧
      p.head?.all (fun c => !isWhite c) = true ∧ p.getLast?.all (fun c => !isWhite c) = true)
    (by simp [bare_iff, Option.all_eq_true])

/-- A path, with or without a drive. -/
inductive IsPath : List Char → Prop
  | bare {p : List Char} (h : Bare p) : IsPath p
  | drive {letter slash : Char} {p : List Char} (hletter : isAsciiLetter letter = true)
      (hslash : slash = '\\' ∨ slash = '/') (h : Bare p) : IsPath (letter :: ':' :: slash :: p)

/-- What a line may have in front: nothing, or the number of a project. -/
inductive Project : List Char → Prop
  | none : Project []
  | number {ds : List Char} (h : Digits ds) : Project (ds ++ ['>'])

/-- A path and the number of a line. -/
def place (path : List Char) (n : Nat) : List Char :=
  path ++ '(' :: (digits n ++ [')'])

/-- A line of build output, and the diagnostic that it renders, if it renders one. -/
inductive Line (f : RemarkFamily) : List Char → Option Diagnostic → Prop
  | other {l : List Char} (h : ¬ "info".toList <:+: l) : Line f l none
  | remark {project g₁ path g₂ code phrase : List Char} {n : Nat} (hproject : Project project)
      (h₁ : Gap g₁) (hpath : IsPath path) (hpos : 1 ≤ n) (hn : n < Nat.pow 2 32) (h₂ : Gap g₂)
      (hphrase : Phrase f code phrase) :
      Line f (project ++ (g₁ ++ (place path n ++ (g₂ ++ ':' :: phrase))))
        (some
          { rawMessage := String.ofList (place path n ++ (g₂ ++ ':' :: phrase))
            filePath := String.ofList path
            line := n
            code := String.ofList code
            severity := .message })

/-! ## Characters -/

lemma isLocationChar_of_fit {c : Char} (hc : c ∉ unfit) : isLocationChar c = true := by
  simpa [unfit, isLocationChar, and_assoc] using hc

/-- The characters of a class that has none of the unfit ones go on with a location. -/
lemma isLocationChar_of_class {p : Char → Bool} (hp : unfit.any p = false) {c : Char}
    (hc : p c = true) : isLocationChar c = true := by
  refine isLocationChar_of_fit fun hmem => ?_
  rw [List.any_eq_false] at hp
  exact hp c hmem hc

lemma isLocationChar_of_isGap {c : Char} (hc : isGap c = true) : isLocationChar c = true :=
  isLocationChar_of_class (by decide) hc

lemma isLocationChar_of_isDecimal {c : Char} (hc : isDecimal c = true) :
    isLocationChar c = true :=
  isLocationChar_of_class (by decide) hc

lemma isLocationChar_of_isAsciiLetter {c : Char} (hc : isAsciiLetter c = true) :
    isLocationChar c = true :=
  isLocationChar_of_class (by decide) hc

lemma toNat_of_isAsciiLetter {c : Char} (hc : isAsciiLetter c = true) :
    65 ≤ c.toNat ∧ c.toNat ≤ 122 := by
  simp only [isAsciiLetter, Bool.or_eq_true, Bool.and_eq_true, decide_eq_true_eq] at hc
  rcases hc with ⟨hlow, hhigh⟩ | ⟨hlow, hhigh⟩
  · exact ⟨hlow, Nat.le_trans hhigh (by decide)⟩
  · exact ⟨Nat.le_trans (by decide) hlow, hhigh⟩

lemma not_isWhite_of_isAsciiLetter {c : Char} (hc : isAsciiLetter c = true) :
    isWhite c = false := by
  have hrange := toNat_of_isAsciiLetter hc
  simp [isWhite]
  omega

/-- The number of a line in parentheses, and a gap behind it, go on with a location. -/
lemma isLocationChar_of_mem_number {n : Nat} {g : List Char} (hg : Gap g) :
    ∀ c ∈ '(' :: (digits n ++ [')']) ++ g, isLocationChar c = true := by
  intro c hc
  simp only [List.cons_append, List.append_assoc, List.mem_cons, List.mem_append,
    List.not_mem_nil, false_or] at hc
  rcases hc with rfl | hdigit | rfl | hgap
  · decide
  · have hascii := isAsciiDigit_of_mem_digits hdigit
    exact isLocationChar_of_isDecimal (isDecimal_of_isAsciiDigit hascii)
  · decide
  · exact isLocationChar_of_isGap (hg c hgap)

lemma ne_colon_of_isLocationChar {c : Char} (hc : isLocationChar c = true) : c ≠ ':' := by
  rintro rfl
  exact absurd hc (by decide)

/-! ## The search along a line -/

section

variable {f : RemarkFamily} {back xs rest : List Char}

lemma scan_location (hxs : ∀ c ∈ xs, isLocationChar c = true) (back rest : List Char) :
    scan f 0 back (xs ++ rest) = scan f 0 (xs.reverse ++ back) rest := by
  induction xs generalizing back with
  | nil => rfl
  | cons x xs ih =>
    have hx : isLocationChar x = true := hxs x (List.mem_cons_self ..)
    rw [List.cons_append, scan, if_neg (ne_colon_of_isLocationChar hx), if_pos hx,
      ih (fun c hc => hxs c (List.mem_cons_of_mem x hc))]
    simp

/-- What belongs to the remark found last is passed over. -/
lemma scan_skip (xs rest : List Char) : scan f xs.length [] (xs ++ rest) = scan f 0 [] rest := by
  induction xs with
  | nil => rfl
  | cons x xs ih => exact ih

/-- No phrase starts with a slash. -/
lemma afterColon_slash {slash : Char} (hslash : slash = '\\' ∨ slash = '/') :
    afterColon f (slash :: rest) = none := by
  rcases hslash with rfl | rfl <;> rfl

/-- With a drive the location starts anew. -/
lemma scan_drive {letter slash : Char} (hletter : isAsciiLetter letter = true)
    (hslash : slash = '\\' ∨ slash = '/') :
    scan f 0 back (letter :: ':' :: slash :: rest) = scan f 0 [slash, ':', letter] rest := by
  have hlocation := isLocationChar_of_isAsciiLetter hletter
  have hcolon : atColon f (letter :: back) (slash :: rest) = none := by
    rw [atColon, afterColon_slash hslash]
    rfl
  have hdrive : driveOf (letter :: back) (slash :: rest) = [':', letter] := by
    rcases hslash with rfl | rfl <;> simp [driveOf, hletter, startsWithSlash]
  rw [scan, if_neg (ne_colon_of_isLocationChar hlocation), if_pos hlocation, scan, if_pos rfl,
    hcolon, hdrive]
  rcases hslash with rfl | rfl <;> rfl

/-- The search gathers a path, and perhaps the gap in front of it. -/
lemma scan_path {g path : List Char} (hg : Gap g) (hpath : IsPath path) :
    ∃ g', Gap g' ∧ ∀ rest, scan f 0 [] (g ++ (path ++ rest)) =
      scan f 0 (g' ++ path).reverse rest := by
  have hlocation : ∀ c ∈ g, isLocationChar c = true := fun c hc => isLocationChar_of_isGap (hg c hc)
  cases hpath with
  | bare h =>
    have hp : ∀ c ∈ path, isLocationChar c = true := fun c hc => isLocationChar_of_fit (h.fit c hc)
    refine ⟨g, hg, fun rest => ?_⟩
    rw [scan_location hlocation, scan_location hp, List.reverse_append, List.append_nil]
  | @drive letter slash p hletter hslash h =>
    have hp : ∀ c ∈ p, isLocationChar c = true := fun c hc => isLocationChar_of_fit (h.fit c hc)
    refine ⟨[], gap_nil, fun rest => ?_⟩
    rw [scan_location hlocation, List.cons_append, List.cons_append, List.cons_append,
      scan_drive hletter hslash, scan_location hp]
    simp

/-- A remark is found at the colon in front of its phrase. -/
lemma scan_remark {code phrase : List Char} (hf : f.Tidy) (hback : back ≠ [])
    (h : Phrase f code phrase) (rest : List Char) :
    scan f 0 back (':' :: (phrase ++ rest)) =
      ⟨back.reverse ++ ':' :: phrase, back.reverse, code⟩ :: scan f 0 [] rest := by
  have hcolon : atColon f back (phrase ++ rest) =
      some (⟨back.reverse ++ ':' :: phrase, back.reverse, code⟩, phrase.length) := by
    rw [atColon, if_neg (by simpa using hback), afterColon_phrase hf h]
    rfl
  rw [scan, if_pos rfl, hcolon]
  exact congrArg _ (scan_skip phrase rest)

end

/-! ## The location of a remark -/

section

variable {path : List Char}

lemma IsPath.nonempty (h : IsPath path) : path ≠ [] := by
  cases h with
  | bare h => exact h.nonempty
  | drive hletter hslash h => exact List.cons_ne_nil _ _

lemma IsPath.first (h : IsPath path) : ∀ c ∈ path.head?, isWhite c = false := by
  cases h with
  | bare h => exact h.first
  | drive hletter hslash h =>
    intro c hc
    obtain rfl := Option.some.inj hc
    exact not_isWhite_of_isAsciiLetter hletter

lemma IsPath.last (h : IsPath path) : ∀ c ∈ path.getLast?, isWhite c = false := by
  cases h with
  | bare h => exact h.last
  | @drive letter slash p hletter hslash h =>
    have hlast : (letter :: ':' :: slash :: p).getLast? = p.getLast? :=
      List.getLast?_append_of_ne_nil [letter, ':', slash] h.nonempty
    rw [hlast]
    exact h.last

/-- A path has no white space around it that trimming would remove. -/
lemma IsPath.trim (h : IsPath path) : trim path = path :=
  trim_eq_self h.first h.last

lemma splitParentheses_place (path : List Char) (n : Nat) :
    splitParentheses (place path n) = some (path, digits n) := by
  have hdecimal : ∀ d ∈ (digits n).reverse, isDecimal d = true := fun d hd =>
    isDecimal_of_isAsciiDigit (isAsciiDigit_of_mem_digits (List.mem_reverse.mp hd))
  have hreverse : (place path n).reverse = ')' :: ((digits n).reverse ++ '(' :: path.reverse) := by
    simp [place]
  have hparenthesis : isDecimal '(' = false := by decide
  have hne : digits n ≠ [] := Nat.toDigits_ne_nil
  simp [splitParentheses, hreverse, takeWhile_decimals hdecimal hparenthesis,
    dropWhile_decimals hdecimal hparenthesis, hne]

/-- The path and the number of a line are taken apart again. -/
lemma splitLocation_place {n : Nat} (hpath : IsPath path) (hpos : 1 ≤ n)
    (hn : n < Nat.pow 2 32) : splitLocation (place path n) = some (path, n) := by
  have hread : readNumeralUpTo maxWord32 (digits n) = some n :=
    readNumeralUpTo_digits (Nat.le_sub_one_of_lt hn)
  simp [splitLocation, splitParentheses_place, hpath.trim, hread, hpath.nonempty]
  omega

/-- A path in front of something has no white space in front. -/
lemma place_first (hpath : IsPath path) (n : Nat) (rest : List Char) :
    ∀ c ∈ (place path n ++ rest).head?, isWhite c = false := by
  have hhead : (place path n ++ rest).head? = path.head? := by
    rw [place, List.append_assoc, List.head?_append_of_ne_nil _ hpath.nonempty]
  rw [hhead]
  exact hpath.first

lemma place_last (path : List Char) (n : Nat) :
    ∀ c ∈ (place path n).getLast?, isWhite c = false := by
  have hlast : (place path n).getLast? = some ')' := by
    simp [place, List.getLast?_append, List.getLast?_cons]
  rw [hlast]
  rintro c ⟨⟩
  rfl

/-- A phrase ends in the quote behind the reason code. -/
lemma Phrase.last {f : RemarkFamily} {code phrase : List Char} (h : Phrase f code phrase)
    (back : List Char) : ∀ c ∈ (back ++ phrase).getLast?, isWhite c = false := by
  have hlast : (back ++ phrase).getLast? = some '\'' := by
    cases h
    simp [List.getLast?_append, List.getLast?_cons]
  rw [hlast]
  rintro c ⟨⟩
  rfl

/-- The diagnostic of a rendered remark, with the gap that was found in front of its path. -/
lemma diagnostic_rendered {f : RemarkFamily} {g₁ g₂ code phrase : List Char} {n : Nat}
    (h₁ : Gap g₁) (hpath : IsPath path) (hpos : 1 ≤ n) (hn : n < Nat.pow 2 32) (h₂ : Gap g₂)
    (hphrase : Phrase f code phrase) :
    Match.diagnostic ⟨g₁ ++ (place path n ++ (g₂ ++ ':' :: phrase)), g₁ ++ (place path n ++ g₂),
        code⟩ =
      some
        { rawMessage := String.ofList (place path n ++ (g₂ ++ ':' :: phrase))
          filePath := String.ofList path
          line := n
          code := String.ofList code } := by
  have hwhite : ∀ {g}, Gap g → ∀ c ∈ g, isWhite c = true := fun hg c hc =>
    isWhite_of_isGap (hg c hc)
  have hlocation : trim (g₁ ++ (place path n ++ g₂)) = place path n := by
    have hfirst := place_first hpath n []
    rw [List.append_nil] at hfirst
    exact trim_surrounded (hwhite h₁) (hwhite h₂) hfirst (place_last path n)
  have hwhole : trim (g₁ ++ (place path n ++ (g₂ ++ ':' :: phrase))) =
      place path n ++ (g₂ ++ ':' :: phrase) := by
    have hlast := hphrase.last (place path n ++ (g₂ ++ [':']))
    simp only [List.append_assoc, List.singleton_append] at hlast
    have htrim := trim_surrounded (b := []) (hwhite h₁) (by simp) (place_first hpath n _) hlast
    rwa [List.append_nil] at htrim
  rw [Match.diagnostic, hlocation, splitLocation_place hpath hpos hn, hwhole]
  rfl

end

/-! ## The diagnostics of a text -/

section

variable {f : RemarkFamily} {cs : List Char}

/-- There is no remark without the word `info`. -/
lemma scan_of_no_info (hcs : ¬ "info".toList <:+: cs) (n : Nat) (back : List Char) :
    scan f n back cs = [] := by
  induction cs generalizing n back with
  | nil => rfl
  | cons x cs ih =>
    have htail : ¬ "info".toList <:+: cs := fun h => hcs (List.infix_cons h)
    have hcolon : atColon f back cs = none := by
      rw [atColon]
      split
      · rfl
      · cases hr : afterColon f cs with
        | none => rfl
        | some r => exact absurd (info_infix_of_afterColon hr) htail
    cases n with
    | succ n => exact ih htail n []
    | zero =>
      by_cases hx : x = ':'
      · simpa [scan, hx, hcolon] using ih htail 0 _
      · simpa [scan, hx] using ih htail 0 _

/-- In a rendered remark one remark is found.  It starts with its path, or with a gap in front of
the path: a gap in front of a drive is dropped. -/
lemma matches_rendered {g₁ path g₂ code phrase : List Char} (htidy : f.Tidy) (h₁ : Gap g₁)
    (hpath : IsPath path) (n : Nat) (h₂ : Gap g₂) (hphrase : Phrase f code phrase) :
    ∃ g, Gap g ∧ matches? f (g₁ ++ (place path n ++ (g₂ ++ ':' :: phrase))) =
      [⟨g ++ (place path n ++ (g₂ ++ ':' :: phrase)), g ++ (place path n ++ g₂), code⟩] := by
  obtain ⟨g, hg, hscan⟩ := scan_path (f := f) h₁ hpath
  have hplace : ∀ rest, place path n ++ rest = path ++ ('(' :: (digits n ++ [')']) ++ rest) := by
    simp [place]
  refine ⟨g, hg, ?_⟩
  calc matches? f (g₁ ++ (place path n ++ (g₂ ++ ':' :: phrase)))
      = scan f 0 (g ++ path).reverse
          (('(' :: (digits n ++ [')']) ++ g₂) ++ ':' :: (phrase ++ [])) := by
        rw [matches?, hplace, hscan]
        simp
    _ = scan f 0 (g ++ (place path n ++ g₂)).reverse (':' :: (phrase ++ [])) := by
        rw [scan_location (isLocationChar_of_mem_number h₂), hplace]
        simp
    _ = _ := by
        rw [scan_remark htidy (by simp [place]) hphrase]
        simp [scan]

lemma Project.extract_append {project : List Char} (h : Project project) (hplain : f.Plain)
    (rest : List Char) : extract f (project ++ rest) = extract f rest := by
  cases h with
  | none => rfl
  | number hds =>
    rw [List.append_assoc]
    exact extract_project hplain hds.2 rest

/-- From a line of build output what it renders is extracted. -/
lemma extract_line {l : List Char} {d : Option Diagnostic} (hplain : f.Plain) (htidy : f.Tidy)
    (h : Line f l d) : extract f l = d.toList := by
  cases h with
  | other h =>
    rw [extract, matches?, scan_of_no_info h]
    rfl
  | remark hproject h₁ hpath hpos hn h₂ hphrase =>
    obtain ⟨g, hg, hmatch⟩ := matches_rendered htidy h₁ hpath _ h₂ hphrase
    rw [hproject.extract_append hplain, extract, hmatch, List.filterMap_cons,
      diagnostic_rendered hg hpath hpos hn h₂ hphrase]
    rfl

lemma extract_rendered_lines {ds : List (Option Diagnostic)} (hplain : f.Plain) (htidy : f.Tidy)
    (h : List.Forall₂ (Line f) (lines cs) ds) : extract f cs = ds.reduceOption := by
  rw [extract_lines hplain]
  generalize lines cs = ls at h
  induction h with
  | nil => rfl
  | @cons l d ls ds hl _ ih =>
    rw [List.flatMap_cons, extract_line hplain htidy hl, ih]
    cases d <;> rfl

end

/-- Extraction undoes rendering: from build output that consists of rendered remarks and of lines
without the word `info`, exactly the diagnostics of the remarks are extracted, in order. -/
theorem extract_rendered {f : RemarkFamily}
    (hf : f = .loopNotVectorized ∨ f = .loopNotParallelized) {cs : List Char}
    {ds : List (Option Diagnostic)} (h : List.Forall₂ (Line f) (lines cs) ds) :
    extract f cs = ds.reduceOption := by
  rcases hf with rfl | rfl
  · exact extract_rendered_lines (by decide) ⟨by decide, by decide, by decide⟩ h
  · exact extract_rendered_lines (by decide) ⟨by decide, by decide, by decide⟩ h

/-- The output of two projects, with a line of another kind in between. -/
theorem extract_rendered_of_two_projects :
    extract .loopNotVectorized
      ("12> c:\\src\\dir (1)\\a.cpp(42) : info C5002: loop not vectorized due to reason '1203'" ++
        "\r\nGenerating code\n" ++
        "b c.cpp(4294967295):\tinfo C5002:loop not vectorized due to reason '5'\n").toList =
      [⟨"c:\\src\\dir (1)\\a.cpp(42) : info C5002: loop not vectorized due to reason '1203'",
          "c:\\src\\dir (1)\\a.cpp", 42, "1203", .message⟩,
        ⟨"b c.cpp(4294967295):\tinfo C5002:loop not vectorized due to reason '5'",
          "b c.cpp", 4294967295, "5", .message⟩] := by
  have hwords := Written.refl RemarkFamily.loopNotVectorized.words
  have hnumber : Project ("12".toList ++ ['>']) := .number (by decide)
  have hdrive : IsPath "c:\\src\\dir (1)\\a.cpp".toList :=
    .drive (by decide) (.inl rfl) (p := "src\\dir (1)\\a.cpp".toList) (by decide)
  have hbare : IsPath "b c.cpp".toList := .bare (by decide)
  have hblank : Gap [' '] := by decide
  have htab : Gap ['\t'] := by decide
  have hfirst : Phrase .loopNotVectorized "1203".toList _ :=
    .mk hblank hblank (by decide) hblank hwords (by decide)
  have hlast : Phrase .loopNotVectorized "5".toList _ :=
    .mk htab hblank (by decide) gap_nil hwords (by decide)
  have hother : ¬ "info".toList <:+: "Generating code".toList := fun h =>
    absurd (h.subset (by decide : 'f' ∈ "info".toList)) (by decide)
  have hlines := List.Forall₂.cons
    (Line.remark hnumber hblank hdrive (n := 42) (by decide) (by decide) hblank hfirst)
    (.cons (Line.other hother) (.cons
      (Line.remark .none gap_nil hbare (n := 4294967295) (by decide) (by decide) gap_nil hlast)
      .nil))
  have hextract : ∀ cs, lines cs = _ → extract .loopNotVectorized cs = _ := fun cs hcs =>
    extract_rendered (.inl rfl) (by rw [hcs]; exact hlines)
  exact (hextract _ (by decide +kernel)).trans (by rfl)

end BuildLens.Remark
