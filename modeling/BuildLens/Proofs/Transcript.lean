/-
What the builds of a terminal have printed.

Two write into the output of the builds.  A compiler writes lines, and the monitor writes, at the
end of a timed build, a line about its length that it does not end.  What the compiler prints next
goes on with that line.  `Sitting` describes all that may happen to a monitor and a terminal, and
the `Piece`s that compilers have printed, each with the open line that it went on with.

* `Terminal.tell_output`: a call adds to the output what a compiler prints in it;
* `Transcript`: in the whole output those remarks are found that are found in the pieces, one after
  the other, each one read with its open line;
* `Sitting.sound`: so the tasks of the monitor are first sightings of these, all the time.
-/
import BuildLens.Proofs.Compiler
import BuildLens.Proofs.Remark.OpenLine
import BuildLens.Proofs.Terminal

namespace BuildLens

open BuildLens.Text

/-! ## What the compiler prints -/

/-- What a program has printed. -/
def Finished.text (r : Finished) : List Char :=
  Utf8.decode r.output ++ Utf8.decode r.errors

/-- A program ends what it prints with a line end. -/
structure Finished.Ended (r : Finished) : Prop where
  output : EndsIn 0x0A r.output
  errors : EndsIn 0x0A r.errors

lemma Finished.Ended.text {r : Finished} (h : r.Ended) : EndsIn '\n' r.text :=
  (Utf8.endsIn_decode h.output).append (Utf8.endsIn_decode h.errors)

namespace Terminal

/-- How the compiler ends that is started for a file, if it can be started. -/
def compiled? (mach : Machine) (w : World Terminal) (file : String) : Option Finished :=
  w.host.compiler.bind fun compiler =>
    (mach.start compiler (w.host.options.arguments ++ [file]) w.files).toOption

/-- How the compiler ends that is started in a call, if one is. -/
def run? (mach : Machine) (w : World Terminal) : HostCall → Option Finished
  | .compileFile file => compiled? mach w file
  | .buildProject _ =>
    if w.host.connected then w.host.document.bind fun d => compiled? mach w d.path else none
  | _ => none

/-- What is printed in a call. -/
def runText (mach : Machine) (w : World Terminal) (c : HostCall) : List Char :=
  (run? mach w c).elim [] Finished.text

lemma compile_output (mach : Machine) (w : World Terminal) (file : String) :
    (w.host.compile mach w.files file).2.1.buildOutput.toList =
      w.host.buildOutput.toList ++ (compiled? mach w file).elim [] Finished.text := by
  rw [compile, compiled?]
  cases w.host.compiler with
  | none => exact (List.append_nil _).symm
  | some compiler =>
    rw [Option.bind_some]
    dsimp only
    cases mach.start compiler (w.host.options.arguments ++ [file]) w.files with
    | error e => exact (List.append_nil _).symm
    | ok r =>
      have houtput : (textOf r.output).toList = Utf8.decode r.output := String.toList_ofList
      have herrors : (textOf r.errors).toList = Utf8.decode r.errors := String.toList_ofList
      have hafter : (w.host.afterRun (w.host.options.arguments ++ [file]) r).buildOutput =
          w.host.buildOutput ++ textOf r.output ++ textOf r.errors := rfl
      rw [hafter, String.toList_append, String.toList_append, houtput, herrors, List.append_assoc]
      rfl

lemma build_output (mach : Machine) (w : World Terminal) (target : Target) :
    (w.host.build mach w.files target).host.buildOutput.toList =
      w.host.buildOutput.toList ++ runText mach w (.buildProject target) := by
  rw [build, runText, run?, activeDocument]
  cases w.host.connected with
  | false => exact (List.append_nil _).symm
  | true =>
    cases w.host.document with
    | none => exact (List.append_nil _).symm
    | some d =>
      have hcompiled := compile_output mach w d.path
      dsimp only
      rcases hcompile : w.host.compile mach w.files d.path with ⟨_ | success, s, t⟩ <;>
        rw [hcompile] at hcompiled <;> exact hcompiled

lemma print_output (s : Terminal) (line : String) : (s.print line).buildOutput = s.buildOutput := by
  rw [print]
  split <;> rfl

/-- A call adds to the output what the compiler prints in it, unless it is there to add
something else. -/
lemma tell_output (mach : Machine) (w : World Terminal) {c : HostCall}
    (hc : ∀ text, c ≠ .appendOutput text) :
    (w.tell (Terminal.host mach) c).host.buildOutput.toList =
      w.host.buildOutput.toList ++ runText mach w c := by
  have hsame : ∀ s : Terminal, s.buildOutput = w.host.buildOutput →
      s.buildOutput.toList = w.host.buildOutput.toList ++ [] := by
    intro s hs
    rw [hs, List.append_nil]
  cases c with
  | appendOutput text => exact absurd rfl (hc text)
  | compileFile file =>
    have hcompiled := compile_output mach w file
    rw [World.tell, World.ask]
    dsimp only [host]
    rcases hcompile : w.host.compile mach w.files file with ⟨_ | success, s, t⟩ <;>
      rw [hcompile] at hcompiled <;> exact hcompiled
  | buildProject target => exact build_output mach w target
  -- the other calls change something else, or nothing
  | switchToSibling path extensions =>
    rw [World.tell, World.ask]
    dsimp only [host]
    cases sibling w.files path extensions <;> exact hsame _ rfl
  | openArtifact path l => exact hsame _ (print_output w.host _)
  | showStatus text => exact hsame _ (note_wrote w.host text).output_eq
  | addDiagnostic d => exact hsame _ (print_output w.host _)
  | showProgress r => exact hsame _ (showProgress_wrote w.host r).output_eq
  | _ => exact hsame _ rfl

end Terminal

/-! ## The output in pieces -/

/-- What a compiler has printed, and the open line that it went on with. -/
structure Piece where
  /-- The open line. -/
  front : List Char
  /-- What was printed. -/
  text : List Char

/-- The lines that are left open: those about the lengths of builds. -/
def LeftOpen (line : List Char) : Prop :=
  line = [] ∨ ∃ elapsed, line = (Monitor.lengthText elapsed).toList

lemma LeftOpen.extract_eq_nil {line : List Char} (h : LeftOpen line) (f : RemarkFamily) :
    Remark.extract f line = [] := by
  rcases h with rfl | ⟨elapsed, rfl⟩
  · rfl
  · exact Remark.extract_lengthText f elapsed

/-- The output of the builds and its pieces. -/
structure Transcript (f : RemarkFamily) (cs : List Char) (ps : List Piece) : Prop where
  found : Remark.extract f cs = ps.flatMap fun p => Remark.extract f (p.front ++ p.text)
  leftOpen : LeftOpen (openLine cs)
  fronts : ∀ p ∈ ps, LeftOpen p.front

namespace Transcript

variable {f : RemarkFamily} {cs : List Char} {ps : List Piece}

lemma nil (f : RemarkFamily) : Transcript f [] [] :=
  ⟨rfl, .inl rfl, fun _ hp => absurd hp List.not_mem_nil⟩

/-- A compiler prints something. -/
lemma print (h : Transcript f cs ps) (hf : f.Plain) {text : List Char}
    (htext : EndsIn '\n' text) : Transcript f (cs ++ text) (ps ++ [⟨openLine cs, text⟩]) := by
  refine ⟨?_, ?_, ?_⟩
  · rw [Remark.extract_append_open hf (h.leftOpen.extract_eq_nil f), h.found, List.flatMap_append,
      List.flatMap_singleton]
  · rw [openLine_append htext]
    split
    · exact h.leftOpen
    · exact .inl rfl
  · intro p hp
    rcases List.mem_append.mp hp with hp | hp
    · exact h.fronts p hp
    · rw [List.mem_singleton.mp hp]
      exact h.leftOpen

/-- A monitor does something. -/
lemma perform (h : Transcript f cs ps) (hf : f.Plain) (m : Monitor) (a : Monitor.Act) :
    Transcript f (cs ++ (a.writes m).toList) ps := by
  refine ⟨(Monitor.extract_writes hf cs m a).trans h.found, ?_, h.fronts⟩
  rcases Monitor.writes_cases m a with hwrites | ⟨elapsed, hwrites⟩
  · rw [hwrites, List.append_nil]
    exact h.leftOpen
  · have hline := Monitor.not_mem_lengthText (c := '\n') (by decide) (by decide) (by decide) elapsed
    rw [hwrites, openLine_newline, openLine_of_not_mem hline]
    exact .inr ⟨elapsed, rfl⟩

end Transcript

/-! ## A monitor and a terminal -/

/-- All that may happen to a monitor that is new and a terminal on which nothing was built, and the
pieces that were printed meanwhile.  The monitor may do something, and anything may be asked of
the terminal but to add to the output, whatever the programs of the machine do at that time.  If a
compiler prints anything in a call, then it ends its last line.  Meanwhile all may change but the
output. -/
inductive Sitting (f : RemarkFamily) : Monitor → World Terminal → List Piece → Prop
  | start {w : World Terminal} (h : w.host.buildOutput = "") : Sitting f { family := f } w []
  | perform {m : Monitor} {w : World Terminal} {ps : List Piece} (h : Sitting f m w ps)
      (mach : Machine) (a : Monitor.Act) :
      Sitting f (a.perform (Terminal.host mach) m w).1 (a.perform (Terminal.host mach) m w).2 ps
  | call {m : Monitor} {w : World Terminal} {ps : List Piece} (h : Sitting f m w ps)
      {mach : Machine} {c : HostCall} (hc : ∀ text, c ≠ .appendOutput text)
      (hended : ∀ r ∈ Terminal.run? mach w c, r.Ended) :
      Sitting f m (w.tell (Terminal.host mach) c)
        (ps ++ (Terminal.run? mach w c).toList.map fun r =>
          ⟨openLine w.host.buildOutput.toList, r.text⟩)
  | meanwhile {m : Monitor} {w w' : World Terminal} {ps : List Piece} (h : Sitting f m w ps)
      (hsame : w'.host.buildOutput = w.host.buildOutput) : Sitting f m w' ps

/-- What holds of a monitor and a terminal all the time. -/
structure Sitting.Sound (f : RemarkFamily) (m : Monitor) (s : Terminal) (ps : List Piece) :
    Prop where
  family : m.family = f
  transcript : Transcript f s.buildOutput.toList ps
  seen : ∃ ds, ds <+: Remark.extract f s.buildOutput.toList ∧ m.tasks.items = firstSightings ds

namespace Sitting

variable {mach : Machine} {f : RemarkFamily} {m : Monitor} {w : World Terminal} {ps : List Piece}

lemma performAll (h : Sitting f m w ps) (mach : Machine) (acts : List Monitor.Act) :
    Sitting f (m.performAll (Terminal.host mach) acts w).1
      (m.performAll (Terminal.host mach) acts w).2 ps := by
  induction acts generalizing m w with
  | nil => exact h
  | cons a acts ih => exact ih (h.perform mach a)

/-- A monitor that looks lists all that is found. -/
lemma Sound.items_of_look (h : Sound f m w.host ps) (hf : f.Plain) (mach : Machine)
    {a : Monitor.Act} (ha : a.isLook = true) :
    (a.perform (Terminal.host mach) m w).1.tasks.items =
      firstSightings (ps.flatMap fun p => Remark.extract f (p.front ++ p.text)) := by
  have hworked := Monitor.perform_worked mach m w a
  obtain ⟨ds, hprefix, hitems⟩ := h.seen
  rw [hworked.tasks, if_pos ha, h.family, hworked.output, Monitor.extract_writes hf,
    TaskList.addAll_of_prefix hitems hprefix, h.transcript.found]

lemma Sound.perform (h : Sound f m w.host ps) (hf : f.Plain) (mach : Machine)
    (a : Monitor.Act) :
    Sound f (a.perform (Terminal.host mach) m w).1 (a.perform (Terminal.host mach) m w).2.host
      ps := by
  have hworked := Monitor.perform_worked mach m w a
  have htranscript : Transcript f
      (a.perform (Terminal.host mach) m w).2.host.buildOutput.toList ps := by
    rw [hworked.output]
    exact h.transcript.perform hf m a
  refine ⟨hworked.family.trans h.family, htranscript, ?_⟩
  rw [htranscript.found]
  cases ha : a.isLook with
  | true => exact ⟨_, List.prefix_refl _, h.items_of_look hf mach ha⟩
  | false =>
    -- the list stays, and in the longer output the same is found
    rw [hworked.tasks, ha, ← h.transcript.found]
    exact h.seen

lemma Sound.call (h : Sound f m w.host ps) (hf : f.Plain) {c : HostCall}
    (hc : ∀ text, c ≠ .appendOutput text) (hended : ∀ r ∈ Terminal.run? mach w c, r.Ended) :
    Sound f m (w.tell (Terminal.host mach) c).host
      (ps ++ (Terminal.run? mach w c).toList.map fun r =>
        ⟨openLine w.host.buildOutput.toList, r.text⟩) := by
  have houtput := Terminal.tell_output mach w hc
  obtain ⟨ds, hprefix, hitems⟩ := h.seen
  rw [Terminal.runText] at houtput
  cases hrun : Terminal.run? mach w c with
  | none =>
    -- no compiler was started, and the output is what it was
    rw [hrun, Option.elim_none, List.append_nil] at houtput
    refine ⟨h.family, ?_, ds, ?_, hitems⟩
    · rw [houtput, Option.toList_none, List.map_nil, List.append_nil]
      exact h.transcript
    · rwa [houtput]
  | some r =>
    rw [hrun, Option.elim_some] at houtput
    have htranscript := h.transcript.print hf (hended r hrun).text
    refine ⟨h.family, ?_, ds, ?_, hitems⟩
    · rw [houtput]
      exact htranscript
    · -- what was seen before still stands in front of what the compiler has printed
      rw [houtput, Remark.extract_append_open hf (h.transcript.leftOpen.extract_eq_nil f)]
      exact hprefix.trans (List.prefix_append _ _)

theorem sound (h : Sitting f m w ps) (hf : f.Plain) : Sound f m w.host ps := by
  induction h with
  | start h =>
    refine ⟨rfl, ?_, [], List.nil_prefix, rfl⟩
    rw [h]
    exact .nil f
  | perform _ mach a ih => exact ih.perform hf mach a
  | call _ hc hended ih => exact ih.call hf hc hended
  | meanwhile _ hsame ih => exact ⟨ih.family, hsame ▸ ih.transcript, hsame ▸ ih.seen⟩

/-- At the end of a build a monitor has listed the first sightings among the remarks of all pieces,
each piece read with the open line that it went on with.  If no piece that goes on with an open
line starts with a remark, then these are the remarks of the pieces themselves.  An open line is
about the length of a build.  It does not change what is found in a piece that does not start with
a remark; but if the first line of a piece is a remark at a path without a drive, then the seconds
of the length become the start of its path and of its raw message. -/
theorem tasks_of_pieces (h : Sitting f m w ps) (hf : f.Plain) (mach : Machine)
    {a : Monitor.Act} (ha : a.isLook = true) :
    (a.perform (Terminal.host mach) m w).1.tasks.items =
        firstSightings (ps.flatMap fun p => Remark.extract f (p.front ++ p.text)) ∧
    ((∀ p ∈ ps, p.front = [] ∨ Remark.startsWithRemark f p.text = false) →
      (a.perform (Terminal.host mach) m w).1.tasks.items =
        firstSightings (ps.flatMap fun p => Remark.extract f p.text)) ∧
    ∀ p ∈ ps, p.front ≠ [] → ∃ elapsed, p.front = (Monitor.lengthText elapsed).toList ∧
      (Remark.startsWithRemark f p.text = false →
        Remark.extract f (p.front ++ p.text) = Remark.extract f p.text) ∧
      ∀ {path g code phrase rest : List Char} {n : Nat}, f.Tidy → Remark.Bare path → 1 ≤ n →
        n < Nat.pow 2 32 → Remark.Gap g → Remark.Phrase f code phrase →
        p.text = Remark.place path n ++ (g ++ ':' :: phrase) ++ '\n' :: rest →
        Remark.extract f (p.front ++ p.text) =
          { rawMessage := String.ofList
              (elapsed.secondsText ++ (Remark.place path n ++ (g ++ ':' :: phrase)))
            filePath := String.ofList (elapsed.secondsText ++ path)
            line := n
            code := String.ofList code } :: Remark.extract f rest := by
  have hsound := h.sound hf
  have hitems := hsound.items_of_look hf mach ha
  refine ⟨hitems, fun hstarts => ?_, fun p hp hopen => ?_⟩
  · rw [hitems]
    refine congrArg firstSightings (List.flatMap_congr fun p hp => ?_)
    rcases hsound.transcript.fronts p hp with hfront | ⟨elapsed, hfront⟩
    · rw [hfront, List.nil_append]
    · rcases hstarts p hp with hnil | hstarts
      · rw [hnil, List.nil_append]
      · rw [hfront, Remark.extract_lengthText_append hstarts]
  · obtain ⟨elapsed, hfront⟩ := (hsound.transcript.fronts p hp).resolve_left hopen
    refine ⟨elapsed, hfront, fun hstarts => ?_, ?_⟩
    · rw [hfront, Remark.extract_lengthText_append hstarts]
    · intro path g code phrase rest n htidy hpath hpos hn hg hphrase htext
      rw [hfront, htext]
      exact Remark.extract_lengthText_remark hf htidy hpath hpos hn hg hphrase elapsed

/-! ### A timed build and a compilation -/

/-- A machine whose compiler has a remark about every file. -/
def remarking : Machine where
  environment _ := none
  launch _ arguments t := .ok
    { output := bytesOf ((arguments.getLast?.getD "") ++
        "(42): info C5002: loop not vectorized due to reason '1203'\n")
      errors := []
      success := true
      files := t }

/-- A terminal with a compiler. -/
def equipped : World Terminal where
  host := { compiler := some "/cc", now := .ofClock 0 0 }
  files := { root := .directory [("cc", .file { content := [], executable := true })] }

/-- The solution is built. -/
def built : Monitor × World Terminal :=
  Monitor.performAll (Terminal.host remarking) {}
    [.follow (.buildBegin .solution .build [] (.ofClock 0 0)),
      .follow (.buildDone .solution .build (.ofClock 1 234000000))] equipped

/-- A file is compiled after that. -/
def compiled (file : String) : World Terminal :=
  built.2.tell (Terminal.host remarking) (.compileFile file)

/-- The remark about a file. -/
def remarkPiece (file : String) : Piece where
  front := openLine built.2.host.buildOutput.toList
  text := Utf8.decode (bytesOf (file ++
    "(42): info C5002: loop not vectorized due to reason '1203'\n"))

/-- A project is built at last. -/
def lastBuild : Monitor.Act :=
  .follow (.buildDone .project .build (.ofClock 2 0))

lemma run?_built {file : String} (hfile : '\x00' ∉ file.toList) :
    Terminal.run? remarking built.2 (.compileFile file) = some
      { output := bytesOf (file ++ "(42): info C5002: loop not vectorized due to reason '1203'\n")
        errors := []
        success := true
        files := built.2.files } := by
  have hcompiler : built.2.host.compiler = some "/cc" := by decide +kernel
  have hoptions : built.2.host.options = {} := by decide +kernel
  have hprogram : Machine.isProgram built.2.files "/cc" = true := by decide +kernel
  have hzero : ∀ s ∈ "/cc" :: (({} : Options).arguments ++ [file]), '\x00' ∉ s.toList := by
    intro s hs
    rw [← List.cons_append, List.mem_append, List.mem_singleton] at hs
    rcases hs with hs | rfl
    · have hall : ∀ s ∈ "/cc" :: ({} : Options).arguments, '\x00' ∉ s.toList := by decide +kernel
      exact hall s hs
    · exact hfile
  rw [Terminal.run?, Terminal.compiled?, hcompiler, hoptions, Option.bind_some,
    Machine.start_of_isProgram remarking hprogram (by decide) hzero, remarking]
  dsimp only
  rw [List.getLast?_concat]
  rfl

lemma sitting_compiled (file : String) (hfile : '\x00' ∉ file.toList)
    (hended : EndsIn 0x0A (bytesOf (file ++
      "(42): info C5002: loop not vectorized due to reason '1203'\n"))) :
    Sitting .loopNotVectorized built.1 (compiled file) [remarkPiece file] := by
  have hbuilt : Sitting .loopNotVectorized built.1 built.2 [] :=
    (Sitting.start rfl).performAll remarking _
  have hruns : ∀ r ∈ Terminal.run? remarking built.2 (.compileFile file), r.Ended := by
    rw [run?_built hfile]
    rintro r ⟨⟩
    exact ⟨hended, .nil _⟩
  have hcompiled := hbuilt.call (fun _ => HostCall.noConfusion) hruns
  rw [run?_built hfile] at hcompiled
  simpa [Finished.text, compiled, remarkPiece] using hcompiled

theorem tasks_of_pieces_of_drive :
    Sitting .loopNotVectorized built.1 (compiled "c:/foo.cpp")
        [remarkPiece "c:/foo.cpp"] ∧
      lastBuild.isLook = true ∧
      (lastBuild.perform (Terminal.host remarking) built.1 (compiled "c:/foo.cpp")).1.tasks.items =
        [⟨"c:/foo.cpp(42): info C5002: loop not vectorized due to reason '1203'", "c:/foo.cpp", 42,
          "1203", .message⟩] := by
  have hsitting := sitting_compiled "c:/foo.cpp" (by decide +kernel) (by decide +kernel)
  obtain ⟨-, htasks, -⟩ := hsitting.tasks_of_pieces (by decide) remarking (a := lastBuild) rfl
  refine ⟨hsitting, rfl, (htasks (by decide +kernel)).trans ?_⟩
  decide +kernel

/-- A path without a drive is not what it was: the list is not that of the piece itself. -/
theorem seconds_in_path :
    Sitting .loopNotVectorized built.1 (compiled "foo.cpp") [remarkPiece "foo.cpp"] ∧
      (lastBuild.perform (Terminal.host remarking) built.1 (compiled "foo.cpp")).1.tasks.items =
        [⟨"01.234foo.cpp(42): info C5002: loop not vectorized due to reason '1203'",
          "01.234foo.cpp", 42, "1203", .message⟩] ∧
      firstSightings (Remark.extract .loopNotVectorized (remarkPiece "foo.cpp").text) =
        [⟨"foo.cpp(42): info C5002: loop not vectorized due to reason '1203'", "foo.cpp", 42,
          "1203", .message⟩] := by
  have hsitting := sitting_compiled "foo.cpp" (by decide +kernel) (by decide +kernel)
  have htasks := (hsitting.sound (by decide)).items_of_look (by decide) remarking
    (a := lastBuild) rfl
  refine ⟨hsitting, htasks.trans ?_, ?_⟩
  · decide +kernel
  · decide +kernel

end Sitting

end BuildLens
