/-
The wording of a remark.

What stands behind the colon of a remark is a `Phrase`: the word `info`, the id of the family, its
text and a reason code, with gaps of any length between the words.  The reader `afterColon` and
this relation belong together:

* `phrase_of_afterColon`: whatever is read is a phrase at the start of the text;
* `afterColon_phrase`: a phrase is read as a whole, whatever follows it, if the words of the
  family are separated by single blanks.

Both are proved part by part: for a literal, for a gap, for a wording, for a reason code.
-/
import Mathlib.Data.List.Chain
import Mathlib.Data.List.TakeWhile
import Mathlib.Tactic.Common
import BuildLens.Remark.Pattern

namespace BuildLens

open BuildLens.Text

/-! ## Phrases -/

/-- The words of a family up to the quote in front of the reason code. -/
def RemarkFamily.words (f : RemarkFamily) : List Char :=
  f.text.toList ++ " due to reason ".toList

namespace Remark

/-- A gap, possibly empty. -/
def Gap (g : List Char) : Prop :=
  ∀ c ∈ g, isGap c = true

/-- A row of decimal digits. -/
def Digits (ds : List Char) : Prop :=
  ds ≠ [] ∧ ∀ d ∈ ds, isDecimal d = true

/-- A wording as it is written: every blank has become a gap of at least one character. -/
inductive Written : List Char → List Char → Prop
  | nil : Written [] []
  | letter {x : Char} {w s : List Char} (hx : x ≠ ' ') (h : Written w s) :
      Written (x :: w) (x :: s)
  | blank {g w s : List Char} (hg : Gap g) (hne : g ≠ []) (h : Written w s) :
      Written (' ' :: w) (g ++ s)

/-- What stands behind the colon of a remark with a given reason code. -/
inductive Phrase (f : RemarkFamily) (code : List Char) : List Char → Prop
  | mk {g₁ g₂ g₃ s : List Char} (h₁ : Gap g₁) (h₂ : Gap g₂) (hne : g₂ ≠ []) (h₃ : Gap g₃)
      (hs : Written f.words s) (hcode : Digits code) :
      Phrase f code (g₁ ++ ("info".toList ++ (g₂ ++ (f.id.toList ++ ([':'] ++ (g₃ ++ (s ++
        (['\''] ++ (code ++ ['\''])))))))))

/-- The reading of a text that has some more characters in front. -/
def Reading.behind (s : List Char) (r : Reading) : Reading :=
  { r with used := s ++ r.used }

@[simp] lemma Reading.behind_nil (r : Reading) : r.behind [] = r := rfl

@[simp] lemma Reading.behind_used (s : List Char) (r : Reading) :
    (r.behind s).used = s ++ r.used := rfl

@[simp] lemma Reading.behind_code (s : List Char) (r : Reading) : (r.behind s).code = r.code := rfl

lemma Reading.after_eq_behind (c : Char) (r : Reading) : r.after c = r.behind [c] := rfl

@[simp] lemma Reading.behind_behind (s t : List Char) (r : Reading) :
    (r.behind t).behind s = r.behind (s ++ t) := by
  simp [Reading.behind]

instance (g : List Char) : Decidable (Gap g) :=
  decidable_of_iff (g.all isGap = true) List.all_eq_true

instance (ds : List Char) : Decidable (Digits ds) :=
  decidable_of_iff (ds ≠ [] ∧ ds.all isDecimal = true) (and_congr_right' List.all_eq_true)

/-- A wording may be written as it is. -/
lemma Written.refl (w : List Char) : Written w w := by
  induction w with
  | nil => exact .nil
  | cons x w ih =>
    by_cases hx : x = ' '
    · subst hx
      exact .blank (g := [' ']) (by decide) (by decide) ih
    · exact .letter hx ih

lemma gap_nil : Gap [] := by
  simp [Gap]

lemma gap_cons {c : Char} {g : List Char} : Gap (c :: g) ↔ isGap c = true ∧ Gap g := by
  simp [Gap]

/-! ## Whatever is read is a phrase -/

section

variable {k : List Char → Option Reading} {w cs : List Char} {r : Reading}

lemma literal_eq_some (h : literal w k cs = some r) :
    ∃ rest r', cs = w ++ rest ∧ k rest = some r' ∧ r = r'.behind w := by
  induction w generalizing cs r with
  | nil => exact ⟨cs, r, rfl, h, rfl⟩
  | cons x w ih =>
    cases cs with
    | nil => simp [literal] at h
    | cons c cs =>
      rw [literal] at h
      split at h
      next hc =>
        obtain ⟨r₁, hr₁, rfl⟩ := Option.map_eq_some_iff.mp h
        obtain ⟨rest, r', rfl, hk, rfl⟩ := ih hr₁
        exact ⟨rest, r', by rw [hc]; rfl, hk, by rw [hc]; rfl⟩
      next => simp at h

lemma gap_eq_some (h : gap k cs = some r) :
    ∃ g rest r', Gap g ∧ cs = g ++ rest ∧ k rest = some r' ∧ r = r'.behind g := by
  induction cs generalizing r with
  | nil => exact ⟨[], [], r, gap_nil, rfl, h, rfl⟩
  | cons c cs ih =>
    rw [gap] at h
    split at h
    next hc =>
      rcases Option.or_eq_some_iff.mp h with hlong | ⟨-, hk⟩
      · obtain ⟨r₁, hr₁, rfl⟩ := Option.map_eq_some_iff.mp hlong
        obtain ⟨g, rest, r', hg, rfl, hk, rfl⟩ := ih hr₁
        exact ⟨c :: g, rest, r', gap_cons.mpr ⟨hc, hg⟩, rfl, hk, rfl⟩
      · exact ⟨[], c :: cs, r, gap_nil, rfl, hk, rfl⟩
    next => exact ⟨[], c :: cs, r, gap_nil, rfl, h, rfl⟩

lemma narrowGap_eq_some (h : narrowGap k cs = some r) :
    ∃ c rest r', isGap c = true ∧ cs = c :: rest ∧ k rest = some r' ∧ r = r'.behind [c] := by
  cases cs with
  | nil => simp [narrowGap] at h
  | cons c cs =>
    rw [narrowGap] at h
    split at h
    next hc =>
      obtain ⟨r', hk, rfl⟩ := Option.map_eq_some_iff.mp h
      exact ⟨c, cs, r', hc, rfl, hk, rfl⟩
    next => simp at h

lemma wideGap_eq_some (h : wideGap k cs = some r) :
    ∃ g rest r', Gap g ∧ g ≠ [] ∧ cs = g ++ rest ∧ k rest = some r' ∧ r = r'.behind g := by
  obtain ⟨c, rest, r₁, hc, rfl, hr₁, rfl⟩ := narrowGap_eq_some h
  obtain ⟨g, rest, r', hg, rfl, hk, rfl⟩ := gap_eq_some hr₁
  exact ⟨c :: g, rest, r', gap_cons.mpr ⟨hc, hg⟩, List.cons_ne_nil c g, rfl, hk, by simp⟩

lemma wording_eq_some (h : wording w k cs = some r) :
    ∃ s rest r', Written w s ∧ cs = s ++ rest ∧ k rest = some r' ∧ r = r'.behind s := by
  induction w using wording.induct generalizing cs r with
  | case1 => exact ⟨[], cs, r, .nil, rfl, h, rfl⟩
  | case2 w ih =>
    obtain ⟨c, rest, r₁, hc, rfl, hr₁, rfl⟩ := narrowGap_eq_some h
    obtain ⟨s, rest, r', hs, rfl, hk, rfl⟩ := ih hr₁
    have hg : Gap [c] := gap_cons.mpr ⟨hc, gap_nil⟩
    exact ⟨[c] ++ s, rest, r', .blank hg (by simp) hs, rfl, hk, by simp⟩
  | case3 w hw ih =>
    rw [wording] at h
    · obtain ⟨g, rest, r₁, hg, hne, rfl, hr₁, rfl⟩ := wideGap_eq_some h
      obtain ⟨s, rest, r', hs, rfl, hk, rfl⟩ := ih hr₁
      exact ⟨g ++ s, rest, r', .blank hg hne hs, by simp, hk, by simp⟩
    · exact hw
  | case4 x w hx hx' ih =>
    rw [wording] at h
    · obtain ⟨rest, r₁, rfl, hr₁, rfl⟩ := literal_eq_some h
      obtain ⟨s, rest, r', hs, rfl, hk, rfl⟩ := ih hr₁
      exact ⟨x :: s, rest, r', .letter hx' hs, rfl, hk, rfl⟩
    · exact hx
    · exact hx'

lemma spaced_eq_some (h : spaced w k cs = some r) :
    ∃ g s rest r', Gap g ∧ Written w s ∧ cs = g ++ (s ++ rest) ∧ k rest = some r' ∧
      r = r'.behind (g ++ s) := by
  rw [spaced] at h
  split at h
  · obtain ⟨s, rest, r', hs, rfl, hk, rfl⟩ := wording_eq_some h
    exact ⟨[], s, rest, r', gap_nil, hs, rfl, hk, rfl⟩
  · obtain ⟨g, rest, r₁, hg, rfl, hr₁, rfl⟩ := gap_eq_some h
    obtain ⟨s, rest, r', hs, rfl, hk, rfl⟩ := wording_eq_some hr₁
    exact ⟨g, s, rest, r', hg, hs, rfl, hk, by simp⟩

lemma reasonCode_eq_some (h : reasonCode cs = some r) :
    ∃ rest, Digits r.code ∧ r.used = r.code ++ ['\''] ∧ cs = r.used ++ rest := by
  rw [reasonCode] at h
  split at h
  next => simp at h
  next hne =>
    split at h
    next hquote =>
      obtain rfl := Option.some.inj h
      obtain ⟨rest, hrest⟩ := List.head?_eq_some_iff.mp hquote
      refine ⟨rest, ⟨by simpa using hne, fun d hd => ?_⟩, rfl, ?_⟩
      · exact List.mem_takeWhile_imp hd
      · calc cs = cs.takeWhile isDecimal ++ cs.dropWhile isDecimal :=
              List.takeWhile_append_dropWhile.symm
          _ = _ := by rw [hrest]; simp
    next => simp at h

/-- Whatever is read behind a colon is a phrase, and stands at the start of the text. -/
theorem phrase_of_afterColon {f : RemarkFamily} (h : afterColon f cs = some r) :
    ∃ rest, cs = r.used ++ rest ∧ Phrase f r.code r.used := by
  obtain ⟨g₁, cs₁, r₁, h₁, rfl, hr₁, rfl⟩ := gap_eq_some h
  obtain ⟨cs₂, r₂, rfl, hr₂, rfl⟩ := literal_eq_some hr₁
  obtain ⟨g₂, cs₃, r₃, h₂, hne, rfl, hr₃, rfl⟩ := wideGap_eq_some hr₂
  obtain ⟨cs₄, r₄, rfl, hr₄, rfl⟩ := literal_eq_some hr₃
  obtain ⟨cs₅, r₅, rfl, hr₅, rfl⟩ := literal_eq_some hr₄
  obtain ⟨g₃, s, cs₆, r₆, h₃, hs, rfl, hr₆, rfl⟩ := spaced_eq_some hr₅
  obtain ⟨cs₇, r₇, rfl, hr₇, rfl⟩ := literal_eq_some hr₆
  obtain ⟨rest, hcode, hused, rfl⟩ := reasonCode_eq_some hr₇
  refine ⟨rest, by simp, ?_⟩
  have hphrase := Phrase.mk (f := f) h₁ h₂ hne h₃ hs hcode
  simpa [hused] using hphrase

/-- There is no reading of a text in which the word `info` does not occur. -/
lemma info_infix_of_afterColon {f : RemarkFamily} (h : afterColon f cs = some r) :
    "info".toList <:+: cs := by
  obtain ⟨g, rest, r₁, -, rfl, hr₁, -⟩ := gap_eq_some h
  obtain ⟨rest, -, rfl, -, -⟩ := literal_eq_some hr₁
  exact ⟨g, rest, by simp⟩

end

/-! ## A phrase is read as a whole -/

/-- A text does not start with a gap. -/
def Solid (cs : List Char) : Prop :=
  ∀ c ∈ cs.head?, isGap c = false

/-- A wording in which no two gaps follow one another. -/
def Single (w : List Char) : Prop :=
  w.IsChain fun x y => isGap x = true → isGap y = false

instance (cs : List Char) : Decidable (Solid cs) :=
  decidable_of_iff (cs.head?.all (fun c => !isGap c) = true) (by simp [Solid, Option.all_eq_true])

instance (w : List Char) : Decidable (Single w) :=
  inferInstanceAs (Decidable (w.IsChain fun x y => isGap x = true → isGap y = false))

end Remark

/-- The words of a family are separated by single blanks, and neither its id nor its text starts
with a blank. -/
structure RemarkFamily.Tidy (f : RemarkFamily) : Prop where
  id : Remark.Solid (f.id.toList ++ [':'])
  text : Remark.Solid f.words
  single : Remark.Single f.words

namespace Remark

section

variable {k : List Char → Option Reading} {w s g cs : List Char} {r : Reading}

lemma solid_cons {c : Char} : Solid (c :: cs) ↔ isGap c = false := by
  simp [Solid]

lemma Solid.append_of_solid (hs : Solid (s ++ g)) (hg : g ≠ []) : Solid (s ++ (g ++ cs)) := by
  cases s with
  | nil =>
    cases g with
    | nil => exact absurd rfl hg
    | cons x g => exact hs
  | cons x s => exact hs

/-- What a wording is written as starts with a word if the wording does. -/
lemma Written.solid (h : Written w s) (hw : Solid w) (hcs : Solid cs) : Solid (s ++ cs) := by
  cases h with
  | nil => exact hcs
  | letter hx h => exact hw
  | blank hg hne h => exact absurd (hw ' ' rfl) (by decide)

lemma literal_append (w : List Char) (k : List Char → Option Reading) (cs : List Char) :
    literal w k (w ++ cs) = (k cs).map (Reading.behind w) := by
  induction w with
  | nil => simp [literal, show Reading.behind [] = id from rfl]
  | cons x w ih => simp [literal, ih, Function.comp_def, Reading.after_eq_behind]

lemma literal_append_of_eq_some (hk : k cs = some r) :
    literal w k (w ++ cs) = some (r.behind w) := by
  rw [literal_append, hk]
  rfl

lemma gap_append (hg : Gap g) (hcs : Solid cs) (hk : k cs = some r) :
    gap k (g ++ cs) = some (r.behind g) := by
  induction g with
  | nil =>
    cases cs with
    | nil => exact hk
    | cons c cs => simp [gap, hcs c rfl, hk]
  | cons c g ih =>
    obtain ⟨hc, hg⟩ := gap_cons.mp hg
    simp [gap, hc, ih hg, Reading.after_eq_behind]

lemma wideGap_append (hg : Gap g) (hne : g ≠ []) (hcs : Solid cs) (hk : k cs = some r) :
    wideGap k (g ++ cs) = some (r.behind g) := by
  cases g with
  | nil => exact absurd rfl hne
  | cons c g =>
    obtain ⟨hc, hg⟩ := gap_cons.mp hg
    simp [wideGap, narrowGap, hc, gap_append hg hcs hk, Reading.after_eq_behind]

lemma wording_letter {x : Char} (hx : x ≠ ' ') :
    wording (x :: w) k = literal [x] (wording w k) := by
  rw [wording] <;> simp [hx]

lemma wording_blank (hw : Solid w) : wording (' ' :: w) k = wideGap (wording w k) := by
  rw [wording]
  rintro w' rfl
  exact absurd (hw ' ' rfl) (by decide)

lemma wording_append (hw : Single w)
    (hs : Written w s) (hcs : Solid cs) (hk : k cs = some r) :
    wording w k (s ++ cs) = some (r.behind s) := by
  induction hs with
  | nil => exact hk
  | letter hx hs ih =>
    rw [wording_letter hx]
    have hrest := ih (List.isChain_cons.mp hw).2
    exact (literal_append_of_eq_some hrest).trans (by simp)
  | blank hg hne hs ih =>
    obtain ⟨hhead, htail⟩ := List.isChain_cons.mp hw
    have hsolid : Solid _ := fun c hc => hhead c hc rfl
    rw [wording_blank hsolid, List.append_assoc,
      wideGap_append hg hne (hs.solid hsolid hcs) (ih htail), Reading.behind_behind]

lemma spaced_append (hw : Solid w) (hsingle : Single w)
    (hg : Gap g) (hs : Written w s) (hcs : Solid cs) (hk : k cs = some r) :
    spaced w k (g ++ (s ++ cs)) = some (r.behind (g ++ s)) := by
  have hhead : w.head? ≠ some ' ' := fun h => absurd (hw ' ' h) (by decide)
  rw [spaced, if_neg hhead, gap_append hg (hs.solid hw hcs) (wording_append hsingle hs hcs hk),
    Reading.behind_behind]

lemma takeWhile_decimals {ds : List Char} (hds : ∀ d ∈ ds, isDecimal d = true) {c : Char}
    (hc : isDecimal c = false) (cs : List Char) : (ds ++ c :: cs).takeWhile isDecimal = ds := by
  rw [List.takeWhile_append_of_pos hds, List.takeWhile_cons_of_neg (by simp [hc]),
    List.append_nil]

lemma dropWhile_decimals {ds : List Char} (hds : ∀ d ∈ ds, isDecimal d = true) {c : Char}
    (hc : isDecimal c = false) (cs : List Char) :
    (ds ++ c :: cs).dropWhile isDecimal = c :: cs := by
  rw [List.dropWhile_append_of_pos hds, List.dropWhile_cons_of_neg (by simp [hc])]

lemma reasonCode_append {code : List Char} (hcode : Digits code) (cs : List Char) :
    reasonCode (code ++ '\'' :: cs) = some ⟨code ++ ['\''], code⟩ := by
  have hquote : isDecimal '\'' = false := by decide
  rw [reasonCode, takeWhile_decimals hcode.2 hquote, dropWhile_decimals hcode.2 hquote]
  simp [hcode.1]

lemma solid_info (cs : List Char) : Solid ("info".toList ++ cs) := by
  simp [Solid, isGap]

/-- A phrase is read as a whole, whatever follows it. -/
theorem afterColon_phrase {f : RemarkFamily} {code phrase : List Char} (hf : f.Tidy)
    (h : Phrase f code phrase) (rest : List Char) :
    afterColon f (phrase ++ rest) = some ⟨phrase, code⟩ := by
  obtain ⟨h₁, h₂, hne, h₃, hs, hcode⟩ := h
  have hr₁ := reasonCode_append hcode rest
  have hr₂ := literal_append_of_eq_some (w := ['\'']) hr₁
  have hr₃ := spaced_append hf.text hf.single h₃ hs (solid_cons.mpr (by decide)) hr₂
  have hr₄ := literal_append_of_eq_some (w := [':']) hr₃
  have hr₅ := literal_append_of_eq_some (w := f.id.toList) hr₄
  have hr₆ := wideGap_append h₂ hne (hf.id.append_of_solid (by simp)) hr₅
  have hr₇ := literal_append_of_eq_some (w := "info".toList) hr₆
  have hr₈ := gap_append h₁ (solid_info _) hr₇
  simpa [afterColon, RemarkFamily.words, Reading.behind] using hr₈

end

end Remark

end BuildLens
