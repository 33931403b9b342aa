/-
The shape of a remark.

A remark is a location, a colon, a gap, and a fixed wording with gaps between its words,
which ends in a reason code of decimal digits in quotes.  A location is a run of characters
without colons, line ends and the characters `<`, `>`, `|` and `"`; in front of it there may
be a drive such as `C:`, if the run starts with a slash.

A text is searched from left to right.  The search keeps the location that would end where
it stands, and at a colon it looks whether the wording of a remark follows.  That wording is
read with a continuation `k`: what has to follow.  So the parts of the wording are the
combinators of this file; each one gives a reading after which `k` succeeds, if there is
one.  Because a wording is made of gaps and of given characters, no text has two readings.
-/
import BuildLens.Remark.Family
import BuildLens.Text.Blank
import BuildLens.Text.Digit

namespace BuildLens.Remark

open BuildLens.Text

/-- A reading of the start of a text. -/
structure Reading where
  /-- The characters that were read. -/
  used : List Char
  /-- The reason code among them. -/
  code : List Char
  deriving DecidableEq, Repr

/-- The reading of a text that has one more character in front. -/
def Reading.after (c : Char) (r : Reading) : Reading :=
  { r with used := c :: r.used }

/-! ## Parts of a wording -/

/-- A given row of characters. -/
def literal (w : List Char) (k : List Char → Option Reading) (cs : List Char) :
    Option Reading :=
  match w, cs with
  | [], cs => k cs
  | _ :: _, [] => none
  | x :: w, c :: cs => if c = x then (literal w k cs).map (Reading.after c) else none

/-- A gap, possibly empty. -/
def gap (k : List Char → Option Reading) : List Char → Option Reading
  | [] => k []
  | c :: cs =>
    if isGap c then ((gap k cs).map (Reading.after c)).or (k (c :: cs)) else k (c :: cs)

/-- A gap of one character. -/
def narrowGap (k : List Char → Option Reading) : List Char → Option Reading
  | [] => none
  | c :: cs => if isGap c then (k cs).map (Reading.after c) else none

/-- A gap of at least one character. -/
def wideGap (k : List Char → Option Reading) : List Char → Option Reading :=
  narrowGap (gap k)

/-- A wording: each blank stands for a gap of at least one character, so a row of blanks
stands for a gap of at least its length. -/
def wording (w : List Char) (k : List Char → Option Reading) : List Char → Option Reading :=
  match w with
  | [] => k
  | ' ' :: ' ' :: w => narrowGap (wording (' ' :: w) k)
  | ' ' :: w => wideGap (wording w k)
  | x :: w => literal [x] (wording w k)

/-- A gap, possibly empty, and a wording.  A wording that starts with a gap needs no other
one in front. -/
def spaced (w : List Char) (k : List Char → Option Reading) : List Char → Option Reading :=
  if w.head? = some ' ' then wording w k else gap (wording w k)

/-! ## The wording of a remark -/

/-- The end of a remark from its reason code on: decimal digits and the closing quote. -/
def reasonCode (cs : List Char) : Option Reading :=
  let code := cs.takeWhile isDecimal
  if code.isEmpty then none
  else if (cs.dropWhile isDecimal).head? = some '\'' then some ⟨code ++ ['\''], code⟩
  else none

/-- What follows the colon behind the location of a remark. -/
def afterColon (f : RemarkFamily) : List Char → Option Reading :=
  gap <| literal "info".toList <| wideGap <| literal f.id.toList <| literal [':'] <|
    spaced (f.text.toList ++ " due to reason ".toList) <| literal ['\''] reasonCode

/-! ## All remarks of a text -/

/-- A remark found in a text. -/
structure Match where
  /-- The remark. -/
  whole : List Char
  /-- Its location. -/
  location : List Char
  /-- Its reason code. -/
  code : List Char
  deriving DecidableEq, Repr

/-- The characters of a location after its drive. -/
def isLocationChar (c : Char) : Bool :=
  c != ':' && c != '<' && c != '>' && c != '|' && c != '"' && c != '\r' && c != '\n'

/-- Whether a text starts with a slash of either kind. -/
def startsWithSlash (cs : List Char) : Bool :=
  cs.head? == some '/' || cs.head? == some '\\'

/-- The drive that ends at a colon, last character first: the letter in front of the colon,
if a slash follows.  Otherwise no location goes on behind the colon. -/
def driveOf (back cs : List Char) : List Char :=
  match back with
  | letter :: _ => if isAsciiLetter letter && startsWithSlash cs then [':', letter] else []
  | [] => []

/-- The remark whose location ends at a colon, if there is one.  The location is given last
character first. -/
def atColon (f : RemarkFamily) (back cs : List Char) : Option (Match × Nat) :=
  if back.isEmpty then none
  else
    (afterColon f cs).map fun r =>
      (⟨back.reverse ++ ':' :: r.used, back.reverse, r.code⟩, r.used.length)

/-- The remarks of a text, after the first `skipped` characters, which belong to the remark
found last.  What has been read of a location is given last character first. -/
def scan (f : RemarkFamily) (skipped : Nat) (back : List Char) : List Char → List Match
  | [] => []
  | c :: cs =>
    match skipped with
    | n + 1 => scan f n [] cs
    | 0 =>
      if c = ':' then
        match atColon f back cs with
        | some (m, n) => m :: scan f n [] cs
        | none => scan f 0 (driveOf back cs) cs
      else scan f 0 (if isLocationChar c then c :: back else []) cs

/-- The remarks of a text, from left to right.  They do not overlap. -/
def matches? (f : RemarkFamily) (cs : List Char) : List Match :=
  scan f 0 [] cs

end BuildLens.Remark
