/-
What a monitor does to a terminal.

A terminal shows a monitor all that the builds have printed, and keeps what the monitor writes
there itself: at the end of a timed build a line about its length.  `Wrote` says what becomes of a
terminal when something is written into the output of the builds and some diagnostics are
reported.  Then

* `perform_worked`: whatever a monitor does, it writes the line about the length at most, looks at
  the output after that, and reports the diagnostics that it adds to its list;
* `extract_writes`: no remark is found in that line, and none gets lost by it.
-/
import BuildLens.Proofs.Monitor
import BuildLens.Proofs.Remark.Length
import BuildLens.Terminal

namespace BuildLens

open BuildLens.Text

/-! ## The state of a terminal -/

/-- The lines in which diagnostics are printed. -/
def reportLines (ds : List Diagnostic) : String :=
  String.join (ds.map fun d => d.display ++ "\n")

@[simp] lemma reportLines_nil : reportLines [] = "" := rfl

lemma reportLines_append (as bs : List Diagnostic) :
    reportLines (as ++ bs) = reportLines as ++ reportLines bs := by
  rw [reportLines, List.map_append, String.join_append]
  rfl

namespace Terminal

/-- A terminal before and after a text is written into the output of the builds and some
diagnostics are reported. -/
structure Wrote (text : String) (ds : List Diagnostic) (s s' : Terminal) : Prop where
  output : s'.buildOutput = s.buildOutput ++ text
  quiet : s'.quiet = s.quiet
  printed : s'.printed = if s.quiet then s.printed else s.printed ++ reportLines ds

namespace Wrote

variable {text more : String} {as bs : List Diagnostic} {s s' s'' : Terminal}

lemma of_eq (houtput : s'.buildOutput = s.buildOutput) (hquiet : s'.quiet = s.quiet)
    (hprinted : s'.printed = s.printed) : Wrote "" [] s s' := by
  refine ⟨?_, hquiet, ?_⟩
  · rw [houtput, String.append_empty]
  · rw [hprinted, reportLines_nil, String.append_empty, ite_self]

lemma refl (s : Terminal) : Wrote "" [] s s :=
  of_eq rfl rfl rfl

/-- Reports do not change the output of the builds. -/
lemma output_eq (h : Wrote "" as s s') : s'.buildOutput = s.buildOutput := by
  rw [h.output, String.append_empty]

lemma trans (first : Wrote text as s s') (second : Wrote more bs s' s'') :
    Wrote (text ++ more) (as ++ bs) s s'' := by
  refine ⟨?_, second.quiet.trans first.quiet, ?_⟩
  · rw [second.output, first.output, String.append_assoc]
  · rw [second.printed, first.quiet, first.printed, reportLines_append]
    split
    · rfl
    · rw [String.append_assoc]

/-- Nothing else is written after that. -/
lemma silent (first : Wrote text as s s') (second : Wrote "" [] s' s'') : Wrote text as s s'' := by
  have hboth := first.trans second
  rwa [String.append_empty, List.append_nil] at hboth

end Wrote

lemma note_wrote (s : Terminal) (line : String) : Wrote "" [] s (s.note line) := by
  rw [note]
  split
  · exact .refl s
  · exact .of_eq rfl rfl rfl

lemma showProgress_wrote (s : Terminal) (r : ProgressReport) :
    Wrote "" [] s (s.showProgress r) := by
  rw [showProgress]
  split
  · exact note_wrote s _
  · exact note_wrote s _
  · exact .refl s

lemma print_wrote (s : Terminal) (d : Diagnostic) : Wrote "" [d] s (s.print d.display) := by
  have hline : reportLines [d] = d.display ++ "\n" := by
    rw [reportLines, List.map_singleton, String.join_cons, String.join_nil, String.append_empty]
  rw [print]
  split
  next hquiet => exact ⟨String.append_empty.symm, rfl, by rw [if_pos hquiet]⟩
  next hquiet =>
    exact ⟨String.append_empty.symm, rfl, by rw [if_neg hquiet, hline, String.append_assoc]⟩

end Terminal

/-! ## A monitor at a terminal -/

namespace Monitor

open Terminal (Wrote)

variable {mach : Machine} {m : Monitor} {w : World Terminal}

/-- What a monitor writes into the output of the builds about the length of one. -/
def lengthLine : Option Span → String
  | none => ""
  | some elapsed => "\n" ++ lengthText elapsed

/-- What a monitor writes into the output of the builds when it does something. -/
def Act.writes (m : Monitor) : Act → String
  | .follow e => lengthLine (m.tracker.apply e).2
  | .look => ""

lemma reportAll_wrote (mach : Machine) (ds : List Diagnostic) (w : World Terminal) :
    Wrote "" ds w.host (reportAll (Terminal.host mach) ds w).host := by
  induction ds generalizing w with
  | nil => exact .refl w.host
  | cons d ds ih =>
    have hfirst : Wrote "" [d] w.host (w.tell (Terminal.host mach) (.addDiagnostic d)).host :=
      Terminal.print_wrote w.host d
    exact hfirst.trans (ih _)

/-- A look at a terminal. -/
lemma collect_wrote (mach : Machine) (m : Monitor) (w : World Terminal) :
    Wrote "" (m.collect (Terminal.host mach) w).1 w.host
      (m.collect (Terminal.host mach) w).2.2.host :=
  reportAll_wrote mach _ (w.tell (Terminal.host mach) .buildOutput)

/-- A terminal does not fail to tell what the builds have printed. -/
lemma collect_tasks (mach : Machine) (m : Monitor) (w : World Terminal) :
    (m.collect (Terminal.host mach) w).2.1.tasks =
      (m.tasks.addAll (Remark.extract m.family w.host.buildOutput.toList)).1 := rfl

lemma tellLength_wrote (mach : Machine) (elapsed : Option Span) (w : World Terminal) :
    Wrote (lengthLine elapsed) [] w.host (tellLength (Terminal.host mach) elapsed w).host := by
  cases elapsed with
  | none => exact .refl w.host
  | some elapsed =>
    have happended : Wrote ("\n" ++ lengthText elapsed) [] w.host
        (w.tell (Terminal.host mach) (.appendOutput ("\n" ++ lengthText elapsed))).host := by
      refine ⟨rfl, rfl, ?_⟩
      rw [reportLines_nil, String.append_empty, ite_self]
      rfl
    exact happended.silent (Terminal.note_wrote _ _)

/-- A monitor and a terminal before and after the monitor has written a text into the output of
the builds, and has looked at the output after that if it looks. -/
structure Worked (text : String) (look : Bool) (m : Monitor) (s : Terminal) (m' : Monitor)
    (s' : Terminal) : Prop where
  family : m'.family = m.family
  wrote : ∃ ds, m'.tasks.items = m.tasks.items ++ ds ∧ Wrote text ds s s'
  tasks : m'.tasks =
    if look then (m.tasks.addAll (Remark.extract m.family s'.buildOutput.toList)).1 else m.tasks

namespace Worked

variable {text : String} {look : Bool} {m' : Monitor} {s s' s'' : Terminal}

lemma of_wrote (h : Wrote "" [] s s') (m : Monitor) : Worked "" false m s m s' :=
  ⟨rfl, ⟨[], (List.append_nil _).symm, h⟩, rfl⟩

lemma of_look (h : Wrote text [] s w.host) (mach : Machine) (m : Monitor) :
    Worked text true m s (m.collect (Terminal.host mach) w).2.1
      (m.collect (Terminal.host mach) w).2.2.host := by
  have hlooked := collect_wrote mach m w
  refine ⟨(collect_found (Terminal.host mach) m w).found.family, ⟨_, collect_items _ m w, ?_⟩, ?_⟩
  · simpa using h.trans hlooked
  · rw [collect_tasks, hlooked.output_eq, if_pos rfl]

lemma silent (first : Worked text look m s m' s') (second : Wrote "" [] s' s'') :
    Worked text look m s m' s'' := by
  obtain ⟨ds, hitems, hwrote⟩ := first.wrote
  refine ⟨first.family, ⟨ds, hitems, hwrote.silent second⟩, ?_⟩
  rw [second.output_eq]
  exact first.tasks

lemma output (h : Worked text look m s m' s') :
    s'.buildOutput.toList = s.buildOutput.toList ++ text.toList := by
  obtain ⟨ds, -, hwrote⟩ := h.wrote
  rw [hwrote.output, String.toList_append]

end Worked

/-- A length is announced only with an event that tells it. -/
lemma announce_worked (mach : Machine) (m : Monitor) (w : World Terminal) (t : Tracker)
    (e : BuildEvent) :
    Worked (lengthLine (t.apply e).2) e.isDone m w.host
      (announce (Terminal.host mach) m e (t.apply e).2 w).1
      (announce (Terminal.host mach) m e (t.apply e).2 w).2.host := by
  cases e with
  | buildBegin => exact .of_wrote (.refl w.host) m
  | projectBegin | projectDone => exact .of_wrote (Terminal.note_wrote w.host _) m
  | buildDone => exact .of_look (tellLength_wrote mach _ w) mach m

/-- What a monitor does at a terminal. -/
theorem perform_worked (mach : Machine) (m : Monitor) (w : World Terminal) (a : Act) :
    Worked (a.writes m) a.isLook m w.host (a.perform (Terminal.host mach) m w).1
      (a.perform (Terminal.host mach) m w).2.host := by
  cases a with
  | look => exact .of_look (.refl w.host) mach m
  | follow e =>
    -- what is announced, and the list, do not depend on the tracker
    have hannounced := announce_worked mach { m with tracker := (m.tracker.apply e).1 } w
      m.tracker e
    obtain ⟨family, wrote, tasks⟩ := hannounced.silent (Terminal.showProgress_wrote _ _)
    exact ⟨family, wrote, tasks⟩

/-! ## The line about the length of a build -/

lemma writes_cases (m : Monitor) (a : Act) : (a.writes m).toList = [] ∨
    ∃ elapsed, (a.writes m).toList = '\n' :: (lengthText elapsed).toList := by
  cases a with
  | look => exact .inl rfl
  | follow e =>
    rw [Act.writes]
    cases (m.tracker.apply e).2 with
    | none => exact .inl rfl
    | some elapsed => exact .inr ⟨elapsed, String.toList_append⟩

/-- What a monitor writes into the output does not change what is found there. -/
lemma extract_writes {f : RemarkFamily} (hf : f.Plain) (cs : List Char) (m : Monitor) (a : Act) :
    Remark.extract f (cs ++ (a.writes m).toList) = Remark.extract f cs := by
  rcases writes_cases m a with hwrites | ⟨elapsed, hwrites⟩
  · rw [hwrites, List.append_nil]
  · rw [hwrites, Remark.extract_separator hf (by decide), Remark.extract_lengthText,
      List.append_nil]

end Monitor

end BuildLens
