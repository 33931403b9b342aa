/-
Recordings are read off their texts.

A recording may have been edited: between its events there may be blank lines and lines that are
no events, and a line may end in a line feed or in a carriage return and a line feed.  A `Row` is
such a line, and `ofRows` is the text of some rows.  Each row is one line for the reader, but for a
carriage return at its end (`lines_row`).  So the rows are read one after the other, and

* `read_ofRows`: if all rows are events or blank, the events are read in their order, and otherwise
  the number of the first row that is neither.
-/
import BuildLens.Model.Recording
import BuildLens.Proofs.Event
import BuildLens.Proofs.Text.Line

namespace BuildLens

open BuildLens.Text

/-! ## Rows -/

namespace Recording

/-- A line of a recording. -/
inductive Row where
  /-- An event. -/
  | event (e : BuildEvent)
  /-- White space. -/
  | blank (cs : List Char)
  /-- Something else. -/
  | other (cs : List Char)

namespace Row

/-- What is written on a row. -/
def text : Row → List Char
  | .event e => Json.render e.toJson
  | .blank cs => cs
  | .other cs => cs

/-- The event on a row. -/
def event? : Row → Option BuildEvent
  | .event e => some e
  | _ => none

/-- Whether a row is neither an event nor blank. -/
def isOther : Row → Bool
  | .other _ => true
  | _ => false

/-- What is read of a row with a number and of the rows behind it. -/
def followedBy (r : Row) (number : Nat) (rest : Except Nat (List BuildEvent)) :
    Except Nat (List BuildEvent) :=
  match r with
  | .event e => rest.map (e :: ·)
  | .blank _ => rest
  | .other _ => .error number

/-- A row is what it is called: the year of an event has four digits, and other rows are no
events. -/
def Holds (now : Instant) : Row → Prop
  | .event e => 0 ≤ e.time.date.year ∧ e.time.date.year ≤ 9999
  | .blank cs => '\n' ∉ cs ∧ cs.all isWhite
  | .other cs => '\n' ∉ cs ∧ ¬ cs.all isWhite ∧ readLine now cs = none

instance (now : Instant) : DecidablePred (Holds now)
  | .event e => inferInstanceAs (Decidable (0 ≤ e.time.date.year ∧ e.time.date.year ≤ 9999))
  | .blank cs => inferInstanceAs (Decidable ('\n' ∉ cs ∧ cs.all isWhite))
  | .other cs =>
    inferInstanceAs (Decidable ('\n' ∉ cs ∧ ¬ cs.all isWhite ∧ readLine now cs = none))

variable {now : Instant} {r : Row}

lemma isPrintable_render_event (e : BuildEvent) : Json.IsPrintable (Json.render e.toJson) :=
  Json.isPrintable_render e.toJson e.isPlain_toJson

lemma newline_not_mem (h : r.Holds now) : '\n' ∉ r.text := by
  cases r with
  | event e =>
    intro hmem
    have hprintable := isPrintable_render_event e '\n' hmem
    contradiction
  | blank cs => exact h.1
  | other cs => exact h.1

/-- An event is written as an object, and so its row is not blank. -/
lemma exists_render_event (e : BuildEvent) : ∃ cs, Json.render e.toJson = '\x7b' :: cs :=
  ⟨_, by rw [BuildEvent.toJson, Json.render]⟩

lemma text_eq_nil (h : r.Holds now) (hnil : r.text = []) : r = .blank [] := by
  cases r with
  | event e =>
    obtain ⟨cs, hcs⟩ := exists_render_event e
    rw [text, hcs] at hnil
    contradiction
  | blank cs => rw [← hnil, text]
  | other cs =>
    obtain rfl : cs = [] := hnil
    exact absurd rfl h.2.1

lemma readLine_append_return (now : Instant) (cs : List Char) :
    readLine now (cs ++ ['\r']) = readLine now cs := by
  rw [readLine, Json.read_append_return, readLine]

/-- A row is read as what it is, with or without a carriage return at its end. -/
lemma readLines_row (h : r.Holds now) {l : List Char} (hl : r.text = l ∨ r.text = l ++ ['\r'])
    (number : Nat) (ls : List (List Char)) :
    readLines now number (l :: ls) = r.followedBy number (readLines now (number + 1) ls) := by
  cases r with
  | event e =>
    obtain rfl : Json.render e.toJson = l := by
      rcases hl with hl | hl
      · exact hl
      · have hprintable := isPrintable_render_event e '\r' (by rw [← text, hl]; simp)
        contradiction
    obtain ⟨cs, hcs⟩ := exists_render_event e
    have hblank : ¬ (Json.render e.toJson).all isWhite := by
      rw [hcs, List.all_cons]
      simp [show isWhite '\x7b' = false by decide]
    have hread : readLine now (Json.render e.toJson) = some e := by
      rw [readLine, Json.read_render e.isPlain_toJson, Option.bind_some, e.ofJson_toJson now h]
    simp only [readLines, if_neg hblank, hread, followedBy]
  | blank cs =>
    have hblank : l.all isWhite := by
      rcases hl with rfl | rfl
      · exact h.2
      · have hall := h.2
        rw [List.all_append, Bool.and_eq_true] at hall
        exact hall.1
    simp only [readLines, if_pos hblank, followedBy]
  | other cs =>
    obtain ⟨-, hcs, hnone⟩ := h
    have hother : ¬ l.all isWhite ∧ readLine now l = none := by
      rcases hl with rfl | rfl
      · exact ⟨hcs, hnone⟩
      · rw [readLine_append_return] at hnone
        refine ⟨fun hall => hcs ?_, hnone⟩
        rw [List.all_append, hall]
        decide
    simp only [readLines, if_neg hother.1, hother.2, followedBy]

end Row

/-- A recording of some rows with their ends, and of a last row that has none. -/
def ofRows (rows : List (Row × LineEnd)) (last : Row) : List Char :=
  rows.flatMap (fun r => r.1.text ++ r.2.text) ++ last.text

/-- What is read of some rows, of which the first one has a given number: their events, or the
number of the first row that is neither an event nor blank. -/
def outcome (number : Nat) (rows : List Row) : Except Nat (List BuildEvent) :=
  match rows.findIdx? Row.isOther with
  | none => .ok (rows.filterMap Row.event?)
  | some i => .error (number + i)

lemma outcome_cons (number : Nat) (r : Row) (rs : List Row) :
    outcome number (r :: rs) = r.followedBy number (outcome (number + 1) rs) := by
  rw [outcome, List.findIdx?_cons]
  cases r with
  | event e =>
    simp only [Row.isOther, Bool.false_eq_true, if_false, outcome, Row.followedBy]
    cases rs.findIdx? Row.isOther with
    | none => rfl
    | some i =>
      simp only [Option.map_some, Except.map]
      rw [Nat.add_assoc, Nat.add_comm 1]
  | blank cs =>
    simp only [Row.isOther, Bool.false_eq_true, if_false, outcome, Row.followedBy]
    cases rs.findIdx? Row.isOther with
    | none => rfl
    | some i =>
      simp only [Option.map_some]
      rw [Nat.add_assoc, Nat.add_comm 1]
  | other cs => rfl

variable {now : Instant}

/-- Some rows are read as they should be, whatever number the first one has. -/
lemma readLines_ofRows {rows : List (Row × LineEnd)} {last : Row}
    (h : ∀ r ∈ rows.map Prod.fst ++ [last], r.Holds now) (number : Nat) :
    readLines now number (lines (ofRows rows last)) =
      outcome number (rows.map Prod.fst ++ [last]) := by
  induction rows generalizing number with
  | nil =>
    have hlast : last.Holds now := h last (by simp)
    rw [ofRows, List.flatMap_nil, List.nil_append, List.map_nil, List.nil_append, outcome_cons]
    by_cases hnil : last.text = []
    · -- an empty text has no lines
      obtain rfl := Row.text_eq_nil hlast hnil
      rfl
    · rw [lines_of_not_mem (Row.newline_not_mem hlast) hnil,
        Row.readLines_row hlast (.inl rfl)]
      rfl
  | cons r rows ih =>
    obtain ⟨hr, hrows⟩ := List.forall_mem_cons.mp h
    obtain ⟨l, hlines, hl⟩ := lines_row (Row.newline_not_mem hr) r.2 (ofRows rows last)
    have htext : ofRows (r :: rows) last = r.1.text ++ r.2.text ++ ofRows rows last := by
      simp [ofRows]
    rw [htext, hlines, Row.readLines_row hr hl, List.map_cons, List.cons_append, outcome_cons,
      ih hrows]

/-- A recording with any blank lines among its events, and with any line ends, is read as its
events; as soon as a line is neither blank nor an event, the number of the first such line is all
that is read. -/
theorem read_ofRows {rows : List (Row × LineEnd)} {last : Row}
    (h : ∀ r ∈ rows.map Prod.fst ++ [last], r.Holds now) :
    read now (ofRows rows last) =
      match (rows.map Prod.fst ++ [last]).findIdx? Row.isOther with
      | none => .ok ((rows.map Prod.fst ++ [last]).filterMap Row.event?)
      | some i => .error (i + 1) := by
  rw [read, readLines_ofRows h, outcome]
  simp only [Nat.add_comm 1]

/-- Half a second into the leap second at the end of 2016. -/
def leapTime : Instant :=
  ⟨⟨2016, 12, 31, by decide, by decide⟩, 86399, 1500000000, by decide, by decide, by decide⟩

/-- The last nanosecond of that year. -/
def leapEnd : Instant :=
  { leapTime with nano := 1999999999, nano_lt := by decide, leap := by decide }

/-- The build of a project with a line break and quotes in its name, within the leap second. -/
def leapBuild : List BuildEvent :=
  [.projectBegin "a\n\x22b\x22" "Debug" "x64" "" leapTime,
    .projectDone "a\n\x22b\x22" "Debug" "x64" "" true leapEnd]

/-- A recording of the build with different line ends and blank lines. -/
def editedRows : List (Row × LineEnd) :=
  [(.blank ['\r'], .lineFeed), (.event (leapBuild[0]), .returnAndFeed),
    (.blank [' ', '\u00A0'], .lineFeed), (.event (leapBuild[1]), .lineFeed)]

/-- The recording is read as the build, and behind it the fifth line is found to be no event. -/
theorem read_ofRows_of_editedRows :
    read leapTime (ofRows editedRows (.blank [])) = .ok leapBuild ∧
      read leapTime (ofRows editedRows (.other ['?'])) = .error 5 := by
  have hgood : ∀ r ∈ editedRows.map Prod.fst ++ [.blank []], r.Holds leapTime := by
    decide +kernel
  have hbad : ∀ r ∈ editedRows.map Prod.fst ++ [.other ['?']], r.Holds leapTime := by
    decide +kernel
  exact ⟨read_ofRows hgood, read_ofRows hbad⟩

end Recording

end BuildLens
