/-
The source line of a session.

A session looks in a generated file for the line of code that it started from.  That line is a text:
a terminal reads the file of the cursor lossily, and what is searched for is the UTF-8 form of what
was read, without the white space around it.

* `Capture.line_of_take`: on a terminal the line that a session is about is the text of the first
  row near the cursor that is not blank;
* `Session.line_found_iff`: so the row of the cursor is found wherever its text stands, and if the
  row is well-formed, wherever its bytes stand.

A row in another encoding is another text than its bytes, and is missed (`legacy_row_missed`).
-/
import BuildLens.Proofs.FirstPlace
import BuildLens.Proofs.Session.AtTerminal
import BuildLens.Proofs.Session.Ending
import BuildLens.Proofs.Session.Subject
import BuildLens.Proofs.Text.FileRow

namespace BuildLens

open BuildLens.Text
open BuildLens.Text.Utf8

/-! ## Rows near the cursor -/

/-- The row of a file with a number counted from 1, unless it is blank. -/
def usableRow? (source : Bytes) (line : Nat) : Option Bytes :=
  if line = 0 then none else (rowsOf source)[line - 1]?.filter fun row => !(rowText row).isEmpty

lemma usableRow?_eq_some {source row : Bytes} {line : Nat}
    (h : usableRow? source line = some row) :
    line ≠ 0 ∧ (rowsOf source)[line - 1]? = some row ∧ rowText row ≠ [] := by
  rw [usableRow?] at h
  split_ifs at h with hline
  obtain ⟨hget, hne⟩ := Option.filter_eq_some_iff.mp h
  exact ⟨hline, hget, by simpa using hne⟩

namespace Terminal

variable {t : FileTree} {path : String} {source row : Bytes} {line : Nat}

lemma lineText_of_read (hread : t.read path = .ok source) (hline : line ≠ 0) :
    lineText t path line = .ok ((lines (decode source))[line - 1]?.map String.ofList) := by
  rw [lineText, if_neg hline, hread]

/-- A usable row is read as a line that is not blank. -/
lemma lineText_usable (hread : t.read path = .ok source)
    (hrow : usableRow? source line = some row) :
    ∃ text, lineText t path line = .ok (some text) ∧ trim text.toList ≠ [] ∧
      trimmed text = String.ofList (rowText row) := by
  obtain ⟨hline, hget, hne⟩ := usableRow?_eq_some hrow
  have htrim := trim_line source (line - 1)
  rw [hget, Option.map_some, Option.getD_some] at htrim
  cases hl : (lines (decode source))[line - 1]? with
  | none =>
    rw [hl] at htrim
    exact absurd htrim.symm hne
  | some l =>
    rw [hl, Option.map_some, Option.getD_some] at htrim
    refine ⟨String.ofList l, ?_, ?_, ?_⟩
    · rw [lineText_of_read hread hline, hl]
      rfl
    · rw [String.toList_ofList, htrim]
      exact hne
    · rw [trimmed, String.toList_ofList, htrim]

/-- Any other row is read as a blank line, or there is no such line. -/
lemma lineText_unusable (hread : t.read path = .ok source)
    (hrow : usableRow? source line = none) :
    ∃ text, lineText t path line = .ok text ∧ ∀ s ∈ text, trim s.toList = [] := by
  rw [usableRow?] at hrow
  split at hrow
  next hline => exact ⟨none, by rw [lineText, if_pos hline], by simp⟩
  next hline =>
    have hblank : ((rowsOf source)[line - 1]?.map rowText).getD [] = [] := by
      cases hget : (rowsOf source)[line - 1]? with
      | none => rfl
      | some row =>
        rw [hget, Option.filter_eq_none_iff] at hrow
        simpa using hrow row rfl
    have htrim := trim_line source (line - 1)
    rw [hblank] at htrim
    refine ⟨_, lineText_of_read hread hline, fun s hs => ?_⟩
    obtain ⟨l, hl, rfl⟩ := Option.map_eq_some_iff.mp hs
    rwa [hl, Option.map_some, Option.getD_some, ← String.toList_ofList (l := l)] at htrim

end Terminal

namespace Capture

variable {m : Machine} {config : SessionConfig} {w : World Terminal} {path : String}
  {source row : Bytes} {line : Nat}

/-- The first usable row that is looked at is taken. -/
lemma firstCode_terminal {front : List Nat} (hread : w.files.read path = .ok source)
    (hfront : ∀ k ∈ front, usableRow? source k = none) (hrow : usableRow? source line = some row)
    (back : List Nat) :
    (firstCode (Terminal.host m) path (front ++ line :: back) w).1 =
      .ok (String.ofList (rowText row)) := by
  induction front generalizing w with
  | nil =>
    obtain ⟨text, htext, hcode, htrim⟩ := Terminal.lineText_usable hread hrow
    have hask : w.ask (Terminal.host m) (.lineText path line) =
        (.ok (some text), (w.ask (Terminal.host m) (.lineText path line)).2) :=
      Prod.ext htext rfl
    rw [List.nil_append, firstCode_of_code _ hask hcode, htrim]
  | cons k front ih =>
    obtain ⟨text, htext, hvain⟩ :=
      Terminal.lineText_unusable hread (hfront k List.mem_cons_self)
    have hask : w.ask (Terminal.host m) (.lineText path k) =
        (.ok text, (w.ask (Terminal.host m) (.lineText path k)).2) :=
      Prod.ext htext rfl
    rw [List.cons_append, firstCode_of_vain _ hask hvain]
    exact ih hread fun j hj => hfront j (List.mem_cons_of_mem k hj)

/-- The row of the cursor is the first one that is usable among those that are looked at. -/
structure AtCursor (config : SessionConfig) (d : Document) (source row : Bytes) : Prop where
  bound : d.cursorLine ≤ maxWord64
  usable : usableRow? source d.cursorLine = some row
  first : ∃ front back, config.probeOffsets = front ++ 0 :: back ∧
    ∀ o ∈ front, ∀ line ∈ probedLine d.cursorLine o, usableRow? source line = none

lemma codeLine_terminal {d : Document} (hread : w.files.read d.path = .ok source)
    (hrow : AtCursor config d source row) :
    (codeLine (Terminal.host m) config d w).1 = .ok (String.ofList (rowText row)) := by
  obtain ⟨front, back, hoffsets, hfront⟩ := hrow.first
  have hpos := Nat.one_le_iff_ne_zero.mpr (usableRow?_eq_some hrow.usable).1
  have hcursor : probedLine d.cursorLine 0 = some d.cursorLine := by
    have hbound := hrow.bound
    rw [probedLine, Int.add_zero, if_pos (by omega)]
    rfl
  rw [codeLine, hoffsets, List.filterMap_append, List.filterMap_cons_some hcursor]
  refine firstCode_terminal hread (fun line hline => ?_) hrow.usable _
  obtain ⟨o, ho, hprobed⟩ := List.mem_filterMap.mp hline
  exact hfront o ho line hprobed

/-- What is searched for depends on the trimmed signature only. -/
lemma functionNeedle_congr {mode : Mode} {a b : List Char} (h : trim a = trim b) :
    Locate.functionNeedle mode a = Locate.functionNeedle mode b := by
  simp only [Locate.functionNeedle, h]

lemma functionNeedle_signatureOf (h : Host Terminal) (d : Document) (mode : Mode) :
    Locate.functionNeedle mode (signatureOf h d w).1.toList =
      Locate.functionNeedle mode (d.enclosingFunction.getD "").toList := by
  refine functionNeedle_congr ?_
  rw [signatureOf_eq, trimmed, String.toList_ofList, trim_trim]

/-- A session that starts at a terminal is about the row of the cursor, and about the function
around it. -/
lemma line_of_take {d : Document} {c : Capture} (hdocument : w.host.document = some d)
    (hread : w.files.read d.path = .ok source) (hrow : AtCursor config d source row)
    (htake : (take (Terminal.host m) config w).1 = .ok c) (mode : Mode) :
    c.line = some (String.ofList (rowText row)) ∧
      Locate.functionNeedle mode c.signature.toList =
        Locate.functionNeedle mode (d.enclosingFunction.getD "").toList := by
  have htaken : take (Terminal.host m) config w = (.ok c, (take (Terminal.host m) config w).2) :=
    Prod.ext htake rfl
  obtain ⟨document, w₁, line, w₂, -, hactive, hline, -, -, hsignature, hc⟩ := take_eq_ok htaken
  have hanswer : w.host.activeDocument = .ok document := World.answer_of_ask hactive
  obtain rfl : document = d := by
    rw [Terminal.activeDocument_eq_ok_iff, hdocument] at hanswer
    exact (Option.some.inj hanswer).symm
  have hfiles : w₁.files = w.files := World.files_of_ask hactive
  have hcode := codeLine_terminal (m := m) (w := w₁) (by rwa [hfiles]) hrow
  rw [hline] at hcode
  obtain rfl := Except.ok.inj hcode
  exact ⟨hc, by rw [hsignature, functionNeedle_signatureOf]⟩

end Capture

/-! ## The line in the generated file -/

namespace Locate

variable {n : List Char} {bs : Bytes} {start : Nat} {place : Option Nat}

/-- There is a first place from a start on if the needle stands anywhere behind that start. -/
lemma isSome_iff_of_isFirst (h : IsFirst (some n) bs start place) :
    place.isSome = true ↔ encode n <:+: bs.drop start := by
  constructor
  · intro hsome
    obtain ⟨first, rfl⟩ := Option.isSome_iff_exists.mp hsome
    obtain ⟨_, ⟨⟩, hle, hstands, -⟩ := h
    have hdrop : bs.drop first <:+ bs.drop start := by
      rw [← Nat.add_sub_cancel' hle, ← List.drop_drop]
      exact List.drop_suffix _ _
    exact hstands.isInfix.trans hdrop.isInfix
  · rintro ⟨x, y, hxy⟩
    cases place with
    | some first => rfl
    | none =>
      refine absurd ?_ (h n rfl (start + x.length) (Nat.le_add_right _ _))
      rw [StandsAt, ← List.drop_drop, ← hxy, List.append_assoc, List.drop_left]
      exact List.prefix_append _ _

lemma lineNeedle_rowText {row : Bytes} (hne : rowText row ≠ []) :
    lineNeedle (some (rowText row)) = some (rowText row) := by
  rw [lineNeedle, Option.map_some, rowText, trim_trim, ← rowText]
  simp [hne]

end Locate

namespace Session

open Locate

variable {m : Machine} {config : SessionConfig} {others : World Terminal → World Terminal → Prop}
  {id : String} {mode : Mode} {s : Session} {w₀ w : World Terminal} {es : List Exchange}
  {a : Shown} {d : Document} {source row : Bytes}

lemma keepsFile_terminal (m : Machine) (path : String) : KeepsFile (Terminal.host m) path :=
  ⟨fun _ _ _ => rfl, fun _ _ _ _ => rfl⟩

/-- Where a session that starts at a terminal finds its line.  The row of the cursor is read as
text, and the UTF-8 form of the trimmed text is what is searched for: the line is found if and only
if that form stands in the file that is shown, behind the function if that is found.  If the row is
well-formed, it is found wherever its bytes, without the ASCII white space around them, stand
there. -/
theorem line_found_iff
    (r : Run (Terminal.host m) config others { id, mode } w₀ s w es)
    (ho : s.outcome? = some (.shown a)) (hdocument : w₀.host.document = some d)
    (hread : w₀.files.read d.path = .ok source)
    (hrow : Capture.AtCursor config d source row) :
    let n := functionNeedle mode (d.enclosingFunction.getD "").toList
    ∃ artifact f, w.files.read a.path = .ok artifact ∧ IsFirst n artifact 0 f ∧
      a.location.functionAnchorFound = f.isSome ∧
      (a.location.lineAnchorFound = true ↔
        encode (rowText row) <:+: artifact.drop (behind n f)) ∧
      (WellFormed row → stripAscii row <:+: artifact.drop (behind n f) →
        a.location.lineAnchorFound = true) := by
  intro n
  obtain ⟨-, hshown, -⟩ := ending_of_run r ho
  obtain ⟨-, -, -, c, artifact, s₁, w₁, es₁, hc, hlocation, -, hartifact⟩ := hshown a rfl
  have htake : (Capture.take (Terminal.host m) config w₀).1 = .ok c := by
    rcases r.taken with ⟨rfl, -⟩ | ⟨-, hcapture⟩
    · exact absurd hc (by simp)
    · exact hcapture c hc
  obtain ⟨hline, hneedle⟩ := Capture.line_of_take hdocument hread hrow htake mode
  have hne : rowText row ≠ [] := (usableRow?_eq_some hrow.usable).2.2
  rw [hline, Option.map_some, String.toList_ofList] at hlocation
  obtain ⟨f, l, hfunction, -, hfirst, heq⟩ :=
    locate_places mode artifact c.signature.toList (some (rowText row))
  rw [hneedle] at hfunction hfirst
  rw [lineNeedle_rowText hne] at hfirst
  have hfound : a.location.lineAnchorFound = true ↔
      encode (rowText row) <:+: artifact.drop (behind n f) := by
    rw [hlocation, heq]
    exact isSome_iff_of_isFirst hfirst
  refine ⟨artifact, f, hartifact (keepsFile_terminal m a.path), hfunction, ?_, hfound, ?_⟩
  · rw [hlocation, heq]
  · rintro ⟨cs, rfl⟩ hstrip
    rw [hfound, rowText, decode_encode]
    rw [rowText, decode_encode] at hne
    exact (encode_trim_isInfix hne).trans hstrip

/-- A source whose second line starts with a space that is no ASCII white space. -/
def spacedSource : Bytes :=
  bytesOf "// f\n\t\u00a0int x = \"caf\u00e9\"; \r\n"

/-- That line. -/
def spacedRow : Bytes :=
  bytesOf "\t\u00a0int x = \"caf\u00e9\"; \r"

/-- A listing with the line in front of the function and in the function. -/
def spacedListing : Bytes :=
  bytesOf "; 2 : \u00a0int x = \"caf\u00e9\";\nf PROC ; f\n; 2 : \u00a0int x = \"caf\u00e9\";\n"

/-- The line is found behind the function, and not where it stands in front of it. -/
theorem line_found_iff_of_spacedSource :
    ∃ s w es a, Run (Terminal.host (writingMachine spacedListing)) { artifactDir := "" }
        (fun _ _ => False) { id := "1", mode := .assembly } (desk {} spacedSource 2 (some "f")) s w
        es ∧
      s.outcome? = some (.shown a) ∧ a.location = ⟨true, true, 44, 3⟩ ∧
      ∃ artifact f, w.files.read a.path = .ok artifact ∧
        encode (rowText spacedRow) <:+: artifact.drop (behind (some "PROC ; f".toList) f) := by
  obtain ⟨es, r⟩ := exists_run_toTheEnd spacedListing .assembly (desk {} spacedSource 2 (some "f"))
    (deskWork .assembly {} "f" "int x = \"caf\u00e9\";") (by decide +kernel) (by decide +kernel)
    (by decide +kernel) (by decide +kernel)
  have hshown : (toTheEnd spacedListing .assembly (desk {} spacedSource 2 (some "f"))
      (deskWork .assembly {} "f" "int x = \"caf\u00e9\";")).1.outcome? =
        some (.shown (shownListing ⟨true, true, 44, 3⟩)) := by
    decide +kernel
  have hrow : Capture.AtCursor { artifactDir := "" }
      ⟨"a.cpp", 2, some "f", some ⟨"demo", "Debug", "x64"⟩⟩ spacedSource spacedRow :=
    ⟨by decide, by decide +kernel, [], _, rfl, fun _ h => absurd h List.not_mem_nil⟩
  obtain ⟨artifact, f, hread, -, -, hfound, -⟩ :=
    line_found_iff r hshown rfl (by decide +kernel) hrow
  exact ⟨_, _, es, _, r, hshown, rfl, artifact, f, hread, hfound.mp rfl⟩

/-- A source whose line is not in UTF-8. -/
def legacySource : Bytes :=
  bytesOf "int x = 'caf" ++ 0xE9 :: bytesOf "';\n"

/-- Its line. -/
def legacyRow : Bytes :=
  bytesOf "int x = 'caf" ++ 0xE9 :: bytesOf "';"

/-- A listing with that line. -/
def legacyListing : Bytes :=
  bytesOf "main:\n; 1 : " ++ legacyRow ++ bytesOf "\n\tret\n"

/-- A row that is not in UTF-8 is missed where its bytes stand. -/
theorem legacy_row_missed :
    Capture.AtCursor { artifactDir := "" } ⟨"a.cpp", 1, none, some ⟨"demo", "Debug", "x64"⟩⟩
        legacySource legacyRow ∧
      ∃ s w es a artifact, Run (Terminal.host (writingMachine legacyListing)) { artifactDir := "" }
          (fun _ _ => False) { id := "1", mode := .assembly } (desk {} legacySource 1 none) s w
          es ∧
        s.outcome? = some (.shown a) ∧ w.files.read a.path = .ok artifact ∧
        a.location.functionAnchorFound = false ∧ stripAscii legacyRow <:+: artifact ∧
        a.location.lineAnchorFound = false := by
  refine ⟨⟨by decide, by decide +kernel, [], _, rfl, fun _ h => absurd h List.not_mem_nil⟩, ?_⟩
  obtain ⟨es, r⟩ := exists_run_toTheEnd legacyListing .assembly (desk {} legacySource 1 none)
    (deskWork .assembly {} "" "int x = 'caf\uFFFD';") (by decide +kernel) (by decide +kernel)
    (by decide +kernel) (by decide +kernel)
  have hshown : (toTheEnd legacyListing .assembly (desk {} legacySource 1 none)
      (deskWork .assembly {} "" "int x = 'caf\uFFFD';")).1.outcome? =
        some (.shown (shownListing ⟨false, false, 0, 1⟩)) := by
    decide +kernel
  have hstrip : stripAscii legacyRow <:+: legacyListing :=
    ⟨bytesOf "main:\n; 1 : ", bytesOf "\n\tret\n", by decide +kernel⟩
  exact ⟨_, _, es, _, legacyListing, r, hshown, by decide +kernel, rfl, hstrip, rfl⟩

end Session

end BuildLens
