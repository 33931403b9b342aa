/-
Blank characters and trimming.

Two classes of blanks play a role.  *White space* is the Unicode property White_Space:
it is what trimming removes and what makes a line count as blank.  A *gap* character is
a space or a tab: it is what a compiler may put between the words of a remark.
-/
namespace BuildLens.Text

/-- The characters with the Unicode property White_Space. -/
def isWhite (c : Char) : Bool :=
  let n := c.toNat
  (0x09 ≤ n && n ≤ 0x0D) || n == 0x20 || n == 0x85 || n == 0xA0 || n == 0x1680 ||
    (0x2000 ≤ n && n ≤ 0x200A) || n == 0x2028 || n == 0x2029 || n == 0x202F ||
    n == 0x205F || n == 0x3000

/-- A space or a tab. -/
def isGap (c : Char) : Bool :=
  c == ' ' || c == '\t'

/-- A text without its leading characters of a class. -/
def trimStart (p : Char → Bool) (cs : List Char) : List Char :=
  cs.dropWhile p

/-- A text without its trailing characters of a class. -/
def trimEnd (p : Char → Bool) (cs : List Char) : List Char :=
  (cs.reverse.dropWhile p).reverse

/-- A text without leading and trailing white space. -/
def trim (cs : List Char) : List Char :=
  trimEnd isWhite (trimStart isWhite cs)

/-- A string without leading and trailing white space. -/
def trimmed (s : String) : String :=
  String.ofList (trim s.toList)

/-- A string of white space only, the empty one included. -/
def isBlank (s : String) : Bool :=
  s.toList.all isWhite

@[simp] theorem trimStart_nil (p : Char → Bool) : trimStart p [] = [] := rfl

@[simp] theorem trimEnd_nil (p : Char → Bool) : trimEnd p [] = [] := rfl

@[simp] theorem trim_nil : trim [] = [] := rfl

/-- Trimming removes white space around a text that neither starts nor ends with any. -/
theorem trim_surrounded {a x b : List Char} (ha : ∀ c ∈ a, isWhite c = true)
    (hb : ∀ c ∈ b, isWhite c = true) (hfirst : ∀ c ∈ x.head?, isWhite c = false)
    (hlast : ∀ c ∈ x.getLast?, isWhite c = false) : trim (a ++ (x ++ b)) = x := by
  have hstart : ∀ ys, trimStart isWhite (a ++ ys) = trimStart isWhite ys := fun ys =>
    List.dropWhile_append_of_pos ha
  have hend : trimEnd isWhite (x ++ b) = x := by
    rw [trimEnd, List.reverse_append, List.dropWhile_append_of_pos (by simpa using hb)]
    rw [← List.head?_reverse] at hlast
    cases hx : x.reverse with
    | nil => simpa using hx.symm
    | cons c y =>
      have hc : isWhite c = false := hlast c (by rw [hx]; rfl)
      rw [List.dropWhile_cons_of_neg (by simp [hc]), ← hx, List.reverse_reverse]
  rw [trim, hstart]
  cases x with
  | nil =>
    have hnil : (b ++ []).dropWhile isWhite = [] := List.dropWhile_append_of_pos hb
    rw [List.append_nil] at hnil
    rw [List.nil_append, trimStart, hnil, trimEnd_nil]
  | cons c x =>
    have hc : isWhite c = false := hfirst c rfl
    rw [trimStart, List.cons_append, List.dropWhile_cons_of_neg (by simp [hc])]
    exact hend

/-- Every gap character is white space. -/
theorem isWhite_of_isGap {c : Char} (h : isGap c = true) : isWhite c = true := by
  simp only [isGap, Bool.or_eq_true, beq_iff_eq] at h
  rcases h with rfl | rfl <;> rfl

end BuildLens.Text
