/-
A recording and a log agree.

The remarks of a log can be asked for in two ways.  One command extracts them at once.  The other
one follows a recording of builds that are taken to have printed the log: there the log is looked
at again at the end of every build, and it grows, because the monitor writes into it how long the
builds took.  `Follows` is what holds all the time: in what has grown exactly the remarks of the
log are found, and once it has been looked at, they are listed and printed.
-/
import BuildLens.Command.Run
import BuildLens.Proofs.Terminal

namespace BuildLens

open BuildLens.Text

namespace Monitor

variable {cs : List Char} {f : RemarkFamily} {looked : Bool} {m : Monitor}
  {w : World Terminal}

/-- A monitor of a terminal on which the builds have printed a text, apart from what the monitor
itself has written there. -/
structure Follows (f : RemarkFamily) (cs : List Char) (looked : Bool) (m : Monitor)
    (s : Terminal) : Prop where
  family : m.family = f
  output : Remark.extract f s.buildOutput.toList = Remark.extract f cs
  items : m.tasks.items = if looked then Remark.extractUnique f cs else []
  printed : s.printed = reportLines m.tasks.items
  loud : s.quiet = false

namespace Follows

/-- Looking once more finds nothing new. -/
lemma look_again (h : Follows f cs looked m w.host) :
    (m.tasks.addAll (Remark.extract f cs)).1.items = Remark.extractUnique f cs := by
  have hlisted : m.tasks.items = firstSightings (if looked then Remark.extract f cs else []) := by
    rw [h.items, Remark.extractUnique_eq]
    cases looked <;> rfl
  have hprefix : (if looked then Remark.extract f cs else []) <+: Remark.extract f cs := by
    cases looked with
    | false => exact List.nil_prefix
    | true => exact List.prefix_refl _
  rw [TaskList.addAll_of_prefix hlisted hprefix, Remark.extractUnique_eq]

/-- Whatever a monitor does, it keeps this up. -/
lemma perform (mach : Machine) (hf : f.Plain) (h : Follows f cs looked m w.host) (a : Act) :
    Follows f cs (looked || a.isLook) (a.perform (Terminal.host mach) m w).1
      (a.perform (Terminal.host mach) m w).2.host := by
  have hworked := perform_worked mach m w a
  have houtput : Remark.extract f
      (a.perform (Terminal.host mach) m w).2.host.buildOutput.toList = Remark.extract f cs := by
    rw [hworked.output, extract_writes hf, h.output]
  obtain ⟨family, ⟨ds, hitems, hwrote⟩, htasks⟩ := hworked
  refine ⟨family.trans h.family, houtput, ?_, ?_, hwrote.quiet.trans h.loud⟩
  · rw [htasks, h.family, houtput]
    cases a.isLook with
    | false => simpa using h.items
    | true => simpa using h.look_again
  · -- what is printed grows by the diagnostics by which the list does
    rw [hwrote.printed, if_neg (by simp [h.loud]), h.printed, hitems, reportLines_append]

lemma performAll (mach : Machine) (hf : f.Plain) (acts : List Act)
    (h : Follows f cs looked m w.host) :
    Follows f cs (looked || acts.any Act.isLook) (m.performAll (Terminal.host mach) acts w).1
      (m.performAll (Terminal.host mach) acts w).2.host := by
  induction acts generalizing looked m w with
  | nil =>
    rw [List.any_nil, Bool.or_false]
    exact h
  | cons a acts ih =>
    rw [List.any_cons, ← Bool.or_assoc]
    exact ih (h.perform mach hf a)

end Follows

/-- Following some events is doing nothing else. -/
lemma dispatchAll_eq_performAll {σ : Type} (h : Host σ) (m : Monitor) (es : List BuildEvent)
    (w : World σ) : m.dispatchAll h es w = m.performAll h (es.map .follow) w := by
  rw [performAll, List.foldl_map]
  rfl

end Monitor

namespace Workplace

variable (p : Workplace)

/-- Once a build has ended, the remarks of the log have been found. -/
lemma follow_follows (es : List BuildEvent) (log : List Char) :
    Monitor.Follows .loopNotVectorized log (es.any BuildEvent.isDone) (p.follow es log).1
      (p.follow es log).2.host := by
  have hstart : Monitor.Follows .loopNotVectorized log false {}
      { buildOutput := String.ofList log, now := p.now } :=
    ⟨rfl, congrArg _ String.toList_ofList, rfl, rfl, rfl⟩
  have hall := Monitor.Follows.performAll p.machine (by decide) (es.map .follow)
    (w := { host := { buildOutput := String.ofList log, now := p.now }, files := p.files }) hstart
  rw [List.any_map, Bool.false_or] at hall
  rw [follow, Monitor.dispatchAll_eq_performAll]
  exact hall

/-- What is reported while some events are followed is listed. -/
lemma reported_follow (es : List BuildEvent) (log : List Char) :
    reported (p.follow es log).2.log = (p.follow es log).1.tasks.items := by
  rw [follow, Monitor.dispatchAll_eq_performAll]
  have hall := (Monitor.performAll_found (Terminal.host p.machine) (es.map .follow) {}
    { host := { buildOutput := String.ofList log, now := p.now }, files := p.files }).found
  exact hall.of_new.1

/-- A recording is followed with the text of a log as the output of the builds. -/
lemma replay_eq {recording log : String} {es : List BuildEvent} {content : Bytes}
    (hes : p.events recording = .ok es) (hlog : p.files.read log = .ok content) :
    p.replay recording (some log) =
      .ofTerminal (p.follow es (Utf8.decode content)).2.host
        (buildLines (p.follow es (Utf8.decode content)).1.tracker
          (p.follow es (Utf8.decode content)).1.tasks.items.length) := by
  have htext : p.readText log = .ok (Utf8.decode content) := by rw [readText, hlog]
  simp only [replay, hes, htext]
  rfl

/-- The two commands agree on a log, whatever bytes it consists of and whatever a recording
contains.  If a build ends in the recording, then the remarks that are reported, listed and
printed while it is followed are those of the report on the log, in the same order, and their
number is printed at the end; if none ends, there are no remarks. -/
theorem replay_agrees {recording log : String} {es : List BuildEvent} {content : Bytes}
    (hes : p.events recording = .ok es) (hlog : p.files.read log = .ok content) :
    ∃ ds, p.diagnostics log .loopNotVectorized = .ok ds ∧
      ds = Remark.extractUnique .loopNotVectorized (Utf8.decode content) ∧
      let remarks := if es.any BuildEvent.isDone then ds else []
      let m := (p.follow es (Utf8.decode content)).1
      let w := (p.follow es (Utf8.decode content)).2
      reported w.log = remarks ∧ m.tasks.items = remarks ∧
        (p.replay recording (some log)).error = none ∧
        (p.replay recording (some log)).printed =
          reportLines remarks ++
            (Performed.ofLines (buildLines m.tracker remarks.length)).printed := by
  have htext : p.diagnostics log .loopNotVectorized =
      .ok (Remark.extractUnique .loopNotVectorized (Utf8.decode content)) := by
    rw [diagnostics, readText, hlog]
    rfl
  have hfollows := p.follow_follows es (Utf8.decode content)
  refine ⟨_, htext, rfl, ?_, hfollows.items, ?_, ?_⟩
  · rw [reported_follow, hfollows.items]
  · rw [p.replay_eq hes hlog]
    rfl
  · rw [p.replay_eq hes hlog, Performed.ofTerminal, hfollows.printed, hfollows.items]

/-- A log in which a remark of two projects stands twice, the second time on a line that is not
ended. -/
def twiceBuiltLog : String :=
  "1>a.cpp(7): info C5002: loop not vectorized due to reason '5'\n" ++
    "2>a.cpp(7): info C5002: loop not vectorized due to reason '5'"

/-- A recording of a build of the solution. -/
def twiceBuiltRecording : String :=
  "[\x22build_begin\x22, \x22solution\x22]\n" ++ "[\x22build_done\x22, \x22solution\x22]\n"

/-- A place with the recording and the log. -/
def twiceBuilt : Workplace where
  machine := ⟨fun _ => none, fun _ _ _ => .error (.os .notFound)⟩
  files :=
    { root := .directory
        [("recording", .file { content := bytesOf twiceBuiltRecording }),
          ("log", .file { content := bytesOf twiceBuiltLog })] }
  now := .ofClock 0 0
  session := ""

theorem replay_agrees_twiceBuilt :
    let es := [.buildBegin .solution .build [] (.ofClock 0 0),
      .buildDone .solution .build (.ofClock 0 0)]
    twiceBuilt.events "recording" = .ok es ∧
      twiceBuilt.files.read "log" = .ok (bytesOf twiceBuiltLog) ∧
      reported (twiceBuilt.follow es (Utf8.decode (bytesOf twiceBuiltLog))).2.log =
        [⟨"a.cpp(7): info C5002: loop not vectorized due to reason '5'", "a.cpp", 7, "5",
          .message⟩] := by
  intro es
  have hes : twiceBuilt.events "recording" = .ok es := by decide +kernel
  have hlog : twiceBuilt.files.read "log" = .ok (bytesOf twiceBuiltLog) := by decide +kernel
  obtain ⟨ds, -, hds, hreported, -⟩ := twiceBuilt.replay_agrees hes hlog
  have hends : es.any BuildEvent.isDone = true := rfl
  refine ⟨hes, hlog, hreported.trans ?_⟩
  rw [if_pos hends, hds]
  decide +kernel

end Workplace

end BuildLens
