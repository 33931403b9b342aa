/-
Sessions at a terminal.

A terminal has one set of options for all files, writes them without fail, and compiles a file by
starting a compiler with the arguments that the options stand for.  So it is known at each point of
a session which options are in force and which file is active (`Session.OnTrack`): between the
configuring and the compiling these are the ones that the session has configured.

If these options ask the compiler for the file that the session shows, and a compiler that succeeds
leaves it there, then the file is there when the session looks for it, and so is the copy that is
shown in its place.  A session at a terminal never waits for a build either: where the compiler
could not be started for the file, it cannot be started for the project.
-/
import BuildLens.Proofs.Compiler
import BuildLens.Proofs.Session.Course
import BuildLens.Proofs.Session.Locating
import BuildLens.Terminal

namespace BuildLens

open BuildLens.Text
open SessionError

lemma Terminal.activeDocument_eq_ok_iff {s : Terminal} {d : Document} :
    s.activeDocument = .ok d ↔ s.document = some d := by
  rw [activeDocument]
  cases s.document <;> simp

/-! ## Capturing -/

namespace Capture

section

variable {σ : Type} {h : Host σ} {config : SessionConfig} {d : Document} {w w' : World σ}
  {e : SessionError}

/-- No file is missing yet when a session finds out what it is about. -/
lemma kind_take (he : take h config w = (.error e, w')) : e.kind ≠ .artifactMissing := by
  obtain ⟨es, -, taken⟩ := take_asked h config w
  rw [he] at taken
  rcases taken.error_cases with ⟨e', rfl⟩ | rfl | rfl | ⟨path, rfl⟩
  · exact kind_ofHost_ne e' (by decide)
  · simp [noUsableSourceLine]
  · simp [noImplementationFile]
  · simp [notInProject]

/-- A session that has found out what it is about has asked for all of it. -/
lemma take_eq_ok {c : Capture} (htake : take h config w = (.ok c, w')) :
    ∃ document w₁ line w₂ d, w.ask h .activeDocument = (.ok document, w₁) ∧
      codeLine h config document w₁ = (.ok line, w₂) ∧
      implementation h config document (signatureOf h document w₂).2 = (.ok d, w') ∧
      c.file = d.path ∧ c.signature = (signatureOf h document w₂).1 ∧ c.line = some line := by
  rw [take] at htake
  split at htake
  next => exact absurd (Prod.mk.inj htake).1 (by simp)
  next document w₁ hactive =>
    split at htake
    next => exact absurd (Prod.mk.inj htake).1 (by simp)
    next line w₂ hline =>
      dsimp only at htake
      split at htake
      next => exact absurd (Prod.mk.inj htake).1 (by simp)
      next d w₃ himpl =>
        split at htake
        next => exact absurd (Prod.mk.inj htake).1 (by simp)
        next =>
          obtain ⟨⟨rfl⟩, rfl⟩ := Prod.mk.inj htake
          exact ⟨document, w₁, line, w₂, d, hactive, hline, himpl, rfl, rfl, rfl⟩

end

section

variable {m : Machine} {config : SessionConfig} {d : Document} {w w' : World Terminal}

/-- Reading lines leaves a terminal as it is. -/
lemma firstCode_host (path : String) (lines : List Nat) (w : World Terminal) :
    (firstCode (Terminal.host m) path lines w).2.host = w.host := by
  induction lines generalizing w with
  | nil => rfl
  | cons line lines ih =>
    have hask : (w.ask (Terminal.host m) (.lineText path line)).2.host = w.host := rfl
    rw [firstCode]
    split
    next heq => rw [heq] at hask; exact hask
    next heq => rw [heq] at hask; exact (ih _).trans hask
    next heq =>
      rw [heq] at hask
      split
      · exact (ih _).trans hask
      · exact hask

lemma codeLine_host (d : Document) (w : World Terminal) :
    (codeLine (Terminal.host m) config d w).2.host = w.host :=
  firstCode_host _ _ w

/-- So does a note, as far as documents and options are concerned. -/
lemma signatureOf_host (d : Document) (w : World Terminal) :
    (signatureOf (Terminal.host m) d w).2.host.document = w.host.document ∧
      (signatureOf (Terminal.host m) d w).2.host.options = w.host.options := by
  have hnote : ∀ text, (w.tell (Terminal.host m) (.showStatus text)).host.document =
        w.host.document ∧
      (w.tell (Terminal.host m) (.showStatus text)).host.options = w.host.options := by
    intro text
    change (w.host.note text).document = _ ∧ (w.host.note text).options = _
    rw [Terminal.note]
    split <;> exact ⟨rfl, rfl⟩
  rw [signatureOf]
  split
  · split
    · exact hnote _
    · exact ⟨rfl, rfl⟩
  · exact hnote _

/-- The document that is compiled is the active one. -/
lemma implementation_host {d' : Document} (hdocument : w.host.document = some d)
    (himpl : implementation (Terminal.host m) config d w = (.ok d', w')) :
    w'.host.document = some d' ∧ w'.host.options = w.host.options := by
  rw [implementation] at himpl
  split at himpl
  · have hswitch : ∀ a w₁, w.ask (Terminal.host m)
        (.switchToSibling d.path config.implementationExtensions) = (a, w₁) →
          w₁.host.options = w.host.options := by
      intro a w₁ heq
      rw [World.host_of_ask heq, Terminal.host]
      dsimp only
      split <;> rfl
    split at himpl
    next => exact absurd (Prod.mk.inj himpl).1 (by simp)
    next => exact absurd (Prod.mk.inj himpl).1 (by simp)
    next w₁ heq =>
      have hoptions := hswitch _ _ heq
      split at himpl
      next => exact absurd (Prod.mk.inj himpl).1 (by simp)
      next w₂ hactive =>
        obtain ⟨⟨rfl⟩, rfl⟩ := Prod.mk.inj himpl
        have hanswer : w₁.host.activeDocument = .ok d' := World.answer_of_ask hactive
        rw [World.host_of_ask hactive]
        exact ⟨Terminal.activeDocument_eq_ok_iff.mp hanswer, hoptions⟩
  · obtain ⟨⟨rfl⟩, rfl⟩ := Prod.mk.inj himpl
    exact ⟨hdocument, rfl⟩

/-- What a terminal is like when a session has found out what it is about. -/
structure Ready (o : Options) (file : String) (s : Terminal) : Prop where
  options : s.options = o
  document : ∃ d, s.document = some d ∧ d.path = file

/-- The file that is compiled is the active one, and the options are what they were. -/
lemma take_host {c : Capture} (htake : take (Terminal.host m) config w = (.ok c, w')) :
    Ready w.host.options c.file w'.host := by
  obtain ⟨document, w₁, line, w₂, d, hactive, hline, himpl, hfile, -⟩ := take_eq_ok htake
  have hanswer : w.host.activeDocument = .ok document := World.answer_of_ask hactive
  have hactivated : w₁.host = w.host := World.host_of_ask hactive
  have hread : w₂.host = w₁.host := by
    rw [← codeLine_host document w₁, hline]
  obtain ⟨hsigned, hoptions⟩ := signatureOf_host (m := m) document w₂
  have hdocument : (signatureOf (Terminal.host m) document w₂).2.host.document = some document := by
    rw [hsigned, hread, hactivated, Terminal.activeDocument_eq_ok_iff.mp hanswer]
  obtain ⟨hfinal, hsame⟩ := implementation_host hdocument himpl
  exact ⟨by rw [hsame, hoptions, hread, hactivated], d, hfinal, hfile.symm⟩

end

end Capture

/-! ## Compiling -/

namespace Terminal

variable {m : Machine} {s s' : Terminal} {t t' : FileTree} {file : String}

/-- A compiler that could not be started has changed nothing. -/
lemma compile_error {e : HostError} (h : s.compile m t file = (.error e, s', t')) :
    s' = s ∧ t' = t := by
  rw [compile] at h
  split at h
  next => exact ⟨(Prod.mk.inj (Prod.mk.inj h).2).1.symm, (Prod.mk.inj (Prod.mk.inj h).2).2.symm⟩
  next =>
    dsimp only at h
    split at h
    · exact ⟨(Prod.mk.inj (Prod.mk.inj h).2).1.symm, (Prod.mk.inj (Prod.mk.inj h).2).2.symm⟩
    · exact absurd (Prod.mk.inj h).1 (by simp)

/-- A compiler that was started has changed the files, and what it says counts. -/
lemma compile_ok {success : Bool} (h : s.compile m t file = (.ok success, s', t')) :
    ∃ compiler f, m.start compiler (s.options.arguments ++ [file]) t = .ok f ∧
      success = f.success ∧ t' = f.files := by
  rw [compile] at h
  split at h
  next => exact absurd (Prod.mk.inj h).1 (by simp)
  next compiler _ =>
    dsimp only at h
    split at h
    next => exact absurd (Prod.mk.inj h).1 (by simp)
    next f hstart =>
      obtain ⟨⟨rfl⟩, hrest⟩ := Prod.mk.inj h
      exact ⟨compiler, f, hstart, rfl, (Prod.mk.inj hrest).2.symm⟩

end Terminal

/-! ## Where a session stands -/

/-- A path leads to a file that can be read. -/
def World.Readable (w : World Terminal) (path : String) : Prop :=
  ∃ content, w.files.read path = .ok content

/-- A session that leaves its target finds the file there, or fails for another reason. -/
def Exit.OnTrack (w : World Terminal) : Exit → Prop
  | .locate _ artifact => w.Readable artifact
  | .fail e => e.kind ≠ .artifactMissing
  | .stop _ => False

namespace Session

/-- What is known at each point of a session that started from given options: which options are in
force until the compiler is done, and from then on that the file is there or that the session fails
for another reason.  It never waits, and is never stopped. -/
def OnTrack (m : Machine) (o : Options) (s : Session) (w : World Terminal) : Prop :=
  match s.phase with
  | .fresh => w.host.options = o
  | .captured c => Capture.Ready o c.file w.host
  | .admitted c _ _ => Capture.Ready o c.file w.host
  | .configured work =>
    Capture.Ready (o.configured s.mode work.artifact) work.capture.file w.host
  | .refused work =>
    Capture.Ready (o.configured s.mode work.artifact) work.capture.file w.host ∧
      ∃ e, (w.host.compile m w.files work.capture.file).1 = .error e
  | .waiting _ _ => False
  | .compiled work none => w.Readable work.artifact
  | .compiled _ (some e) => e.kind ≠ .artifactMissing
  | .stopped _ _ => False
  | .leaving _ exit => exit.OnTrack w
  | .locating _ artifact => w.Readable artifact
  | .failing e => e.kind ≠ .artifactMissing
  | .ended outcome => ∀ e, outcome = .failed e → e.kind ≠ .artifactMissing

section

variable {m : Machine} {config : SessionConfig} {o : Options} {s : Session} {w w' : World Terminal}
  {work : Work}

lemma begin_onTrack (h : w.host.options = o) :
    OnTrack m o (s.begin (Terminal.host m) config w).1 (s.begin (Terminal.host m) config w).2 := by
  rw [begin]
  split
  next htake => exact Capture.kind_take htake
  next htake => exact h ▸ Capture.take_host htake

lemma claim_onTrack {c : Capture} (h : Capture.Ready o c.file w.host) :
    OnTrack m o (s.claim config c w).1 (s.claim config c w).2 := by
  rw [claim]
  dsimp only
  split
  next e he =>
    rw [Gate.acquire] at he
    split at he
    · obtain ⟨rfl⟩ := he
      simp [OnTrack, busy]
    · exact absurd he (by simp)
  next =>
    split
    next e _ _ => exact (kind_ofIo e).trans_ne (by decide)
    next => exact h

lemma changeOptions_onTrack {c : Capture} {artifact : String} {permit : Permit}
    (h : Capture.Ready o c.file w.host) :
    OnTrack m o (s.changeOptions (Terminal.host m) c artifact permit w).1
      (s.changeOptions (Terminal.host m) c artifact permit w).2 := by
  change Capture.Ready (o.configured s.mode artifact) c.file
    { w.host with options := w.host.options.configured s.mode artifact }
  rw [h.options]
  exact ⟨rfl, h.document⟩

/-- A compiler that succeeds has left the file that the session shows. -/
lemma compile_onTrack (hleaves : m.LeavesOperand)
    (hselects : s.mode = .preprocessed ∨ o.generatePreprocessedFile = .no)
    (h : Capture.Ready (o.configured s.mode work.artifact) work.capture.file w.host) :
    OnTrack m o (s.compile (Terminal.host m) work w).1 (s.compile (Terminal.host m) work w).2 := by
  rw [compile]
  rcases hcompile : w.host.compile m w.files work.capture.file with ⟨e | success, host, files⟩
  · -- nothing has changed, so the next attempt fails as well
    obtain ⟨rfl, rfl⟩ := Terminal.compile_error hcompile
    simp only [World.ask, Terminal.host, hcompile]
    exact ⟨h, e, by rw [hcompile]⟩
  · obtain ⟨compiler, f, hstart, rfl, rfl⟩ := Terminal.compile_ok hcompile
    simp only [World.ask, Terminal.host, hcompile]
    cases hsuccess : f.success with
    | false => simp [OnTrack, Wait.failureOf, compileFailed]
    | true =>
      obtain ⟨path, hlaunch⟩ := Machine.launch_of_start hstart
      have hoperand := ((o.selects_configured_iff s.mode work.artifact).mpr hselects).operand
      rw [← h.options] at hoperand
      exact hleaves _ _ _ _ hlaunch hsuccess _ (operand?_append hoperand _)

/-- Where the compiler could not be started for the file, it cannot be started for the project. -/
lemma build_onTrack
    (h : Capture.Ready (o.configured s.mode work.artifact) work.capture.file w.host)
    (herror : ∃ e, (w.host.compile m w.files work.capture.file).1 = .error e) :
    OnTrack m o (s.build (Terminal.host m) config work w).1
      (s.build (Terminal.host m) config work w).2 := by
  obtain ⟨e, he⟩ := herror
  obtain ⟨d, hdocument, hpath⟩ := h.document
  have hactive : w.host.activeDocument = .ok d := Terminal.activeDocument_eq_ok_iff.mpr hdocument
  have hbuild : ∃ e', (w.host.build m w.files work.capture.target).answer = .error e' := by
    rw [Terminal.build]
    split
    · exact ⟨_, rfl⟩
    · rw [hactive]
      dsimp only
      rw [hpath]
      split
      next => exact ⟨_, rfl⟩
      next heq => rw [heq] at he; exact absurd he (by simp)
  obtain ⟨e', he'⟩ := hbuild
  rw [build, Wait.start]
  simp only [World.ask, Terminal.host, he']
  exact kind_ofHost_ne e' (by decide)

lemma locate_onTrack {c : Capture} {artifact : String} (h : w.Readable artifact) :
    OnTrack m o (s.locate (Terminal.host m) config c artifact w).1
      (s.locate (Terminal.host m) config c artifact w).2 := by
  obtain ⟨source, hsource⟩ := h
  rw [locate, if_pos (FileTree.exists?_of_read hsource)]
  split
  next e _ _ => exact (kind_ofIo e).trans_ne (by decide)
  next path w₁ hready =>
    obtain ⟨content, hread⟩ := read_readable hsource hready
    rw [hread]
    intro e he
    exact absurd he (by simp)

/-- Every step keeps a session on track. -/
theorem OnTrack.step (hleaves : m.LeavesOperand)
    (hselects : s.mode = .preprocessed ∨ o.generatePreprocessedFile = .no)
    (h : OnTrack m o s w) :
    OnTrack m o (s.step (Terminal.host m) config w).1 (s.step (Terminal.host m) config w).2 := by
  rw [OnTrack] at h
  cases hphase : s.phase with
  | fresh =>
    rw [hphase] at h
    simp only [Session.step, hphase]
    exact begin_onTrack h
  | captured c =>
    rw [hphase] at h
    simp only [Session.step, hphase]
    exact claim_onTrack h
  | admitted c artifact permit =>
    rw [hphase] at h
    simp only [Session.step, hphase]
    exact changeOptions_onTrack h
  | configured work =>
    rw [hphase] at h
    simp only [Session.step, hphase]
    exact compile_onTrack hleaves hselects h
  | refused work =>
    rw [hphase] at h
    simp only [Session.step, hphase]
    exact build_onTrack h.1 h.2
  | waiting work wait => rw [hphase] at h; exact h.elim
  | stopped work outcome => rw [hphase] at h; exact h.elim
  | compiled work failure =>
    rw [hphase] at h
    simp only [Session.step, hphase]
    cases failure with
    | none => exact h
    | some e => exact h
  | leaving permit exit =>
    rw [hphase] at h
    simp only [Session.step, hphase]
    cases exit with
    | locate c artifact => exact h
    | fail e => exact h
    | stop outcome => exact h.elim
  | locating c artifact =>
    rw [hphase] at h
    simp only [Session.step, hphase]
    exact locate_onTrack h
  | failing e =>
    rw [hphase] at h
    simp only [Session.step, hphase]
    intro e' he'
    obtain ⟨rfl⟩ := he'
    exact h
  | ended outcome =>
    rw [hphase] at h
    simp only [Session.step, hphase, OnTrack]
    exact h

end

section

variable {m : Machine} {config : SessionConfig} {others : World Terminal → World Terminal → Prop}
  {id : String} {mode : Mode} {s : Session} {w₀ w : World Terminal} {es : List Exchange}

/-- All of a run a session at a terminal is on track, whatever options it started from, if the
configured ones ask for the file of its mode. -/
theorem Run.onTrack (hleaves : m.LeavesOperand)
    (hselects : mode = .preprocessed ∨ w₀.host.options.generatePreprocessedFile = .no)
    (r : Run (Terminal.host m) config others { id, mode } w₀ s w es) :
    OnTrack m w₀.host.options s w := by
  induction r with
  | start => rfl
  | step r ih => exact ih.step hleaves (by rwa [r.id_mode.2])
  | interrupt _ phase ih =>
    rw [OnTrack, phase] at ih
    exact ih.elim
  | meanwhile _ phase _ ih =>
    rw [OnTrack, phase] at ih
    exact ih.elim

/-- Options that were configured for a mode ask the compiler for the file of that mode, for no other
kind of file, and for it at the path that they were configured with, just if they were configured
for preprocessed source or did not ask for that before.  If the options at the start are like that,
and compilers leave a readable file at the operand of `-o` whenever they succeed, then a session at
a terminal never waits and never fails because the file is missing. -/
theorem configured_file_there (hleaves : m.LeavesOperand)
    (r : Run (Terminal.host m) config others { id, mode } w₀ s w es) :
    (∀ (o : Options) (mode : Mode) (path : String),
      Selects mode path (o.configured mode path).arguments ↔
        mode = .preprocessed ∨ o.generatePreprocessedFile = .no) ∧
    (mode = .preprocessed ∨ w₀.host.options.generatePreprocessedFile = .no →
      (∀ work wait, s.phase ≠ .waiting work wait) ∧
        ∀ e, s.outcome? = some (.failed e) → e.kind ≠ .artifactMissing) := by
  refine ⟨Options.selects_configured_iff, fun hselects => ?_⟩
  have htrack := r.onTrack hleaves hselects
  rw [OnTrack] at htrack
  refine ⟨fun work wait hphase => ?_, fun e he => ?_⟩
  · rw [hphase] at htrack
    exact htrack
  · rw [phase_of_outcome? he] at htrack
    exact htrack e rfl

end

/-! ## A session whose compiler runs -/

/-- A session and its world after the compiler has run. -/
def afterCompiling (s : Session) (work : Work) (w : World Terminal) (f : Finished) :
    Session × World Terminal :=
  ((s.enter .compiling).goTo (.compiled work (Wait.failureOf work.capture.file (.ok f.success))),
    { w with
      host := w.host.afterRun (w.host.options.arguments ++ [work.capture.file]) f
      files := f.files
      log := w.log ++ [⟨.compileFile work.capture.file, .ran f.success⟩] })

section

variable {m : Machine} {config : SessionConfig} {s : Session} {w : World Terminal} {work : Work}
  {compiler : String} {f : Finished}

lemma step_configured (hphase : s.phase = .configured work)
    (hcompiler : w.host.compiler = some compiler)
    (hstart : m.start compiler (w.host.options.arguments ++ [work.capture.file]) w.files = .ok f) :
    s.step (Terminal.host m) config w = s.afterCompiling work w f := by
  have hcompile : w.host.compile m w.files work.capture.file = (.ok f.success,
      w.host.afterRun (w.host.options.arguments ++ [work.capture.file]) f, f.files) := by
    rw [Terminal.compile, hcompiler]
    dsimp only
    rw [hstart]
  simp only [step, hphase, compile, World.ask, Terminal.host, hcompile]
  rfl

end

end Session

/-! ### A compiler that writes one thing -/

/-- The end of a compiler that writes given bytes to the operand of `-o`.  It has succeeded if they
can be read there, or if there was no operand and nothing to be written. -/
def written (output : Bytes) (arguments : List String) (t : FileTree) : Finished :=
  match operand? arguments with
  | none => { output := [], errors := [], success := true, files := t }
  | some path =>
    let t' := (t.write path output).toOption.getD t
    { output := [], errors := [], success := (t'.read path).isOk, files := t' }

/-- A machine with such a compiler. -/
def writingMachine (output : Bytes) : Machine where
  environment _ := none
  launch _ arguments t := .ok (written output arguments t)

lemma writingMachine_leavesOperand (output : Bytes) : (writingMachine output).LeavesOperand := by
  intro path arguments t f hlaunch hsuccess file hfile
  obtain rfl := Except.ok.inj hlaunch
  rw [Option.mem_def] at hfile
  simp only [written, hfile] at hsuccess ⊢
  cases hread : ((t.write file output).toOption.getD t).read file with
  | ok content => exact ⟨content, rfl⟩
  | error e =>
    rw [hread] at hsuccess
    exact absurd hsuccess (by simp [Except.isOk, Except.toBool])

/-- A terminal at a line of a source, with options that were set before. -/
def desk (options : Options) (source : Bytes) (line : Nat) (function : Option String) :
    World Terminal where
  host :=
    { document := some ⟨"a.cpp", line, function, some ⟨"demo", "Debug", "x64"⟩⟩
      compiler := some "./cc"
      options
      now := .ofClock 0 0 }
  files := { root := .directory [("cc", .file { content := [], executable := true }),
    ("a.cpp", .file { content := source })] }

namespace Session

/-- What a session in the current directory has come to when it has taken three steps. -/
def threeSteps (output : Bytes) (mode : Mode) (w : World Terminal) : Session × World Terminal :=
  advance (Terminal.host (writingMachine output)) { artifactDir := "" } 3 { id := "1", mode } w

/-- And what it has come to in the end, if it is to compile next. -/
def toTheEnd (output : Bytes) (mode : Mode) (w : World Terminal) (work : Work) :
    Session × World Terminal :=
  let before := threeSteps output mode w
  let after := before.1.afterCompiling work before.2
    (written output (before.2.host.options.arguments ++ [work.capture.file]) before.2.files)
  after.1.advance (Terminal.host (writingMachine output)) { artifactDir := "" } 6 after.2

lemma exists_run_toTheEnd (output : Bytes) (mode : Mode) (w : World Terminal) (work : Work)
    (hphase : (threeSteps output mode w).1.phase = .configured work)
    (hcompiler : (threeSteps output mode w).2.host.compiler = some "./cc")
    (hprogram : Machine.isProgram (threeSteps output mode w).2.files "./cc" = true)
    (hzero : ∀ s ∈ "./cc" :: ((threeSteps output mode w).2.host.options.arguments ++
      [work.capture.file]), '\x00' ∉ s.toList) :
    ∃ es, Run (Terminal.host (writingMachine output)) { artifactDir := "" } (fun _ _ => False)
      { id := "1", mode } w (toTheEnd output mode w work).1 (toTheEnd output mode w work).2 es := by
  have hreached : ∃ es, Run (Terminal.host (writingMachine output)) { artifactDir := "" }
      (fun _ _ => False) { id := "1", mode } w (threeSteps output mode w).1
      (threeSteps output mode w).2 es := ⟨_, Run.advance 3 .start⟩
  obtain ⟨es, r⟩ := hreached
  have hstart := Machine.start_of_isProgram (writingMachine output) hprogram (by decide) hzero
  have hnext := r.step
  rw [step_configured hphase hcompiler hstart] at hnext
  exact ⟨_, hnext.advance 6⟩

/-- What a session at a desk is to compile. -/
def deskWork (mode : Mode) (options : Options) (signature line : String) : Work where
  capture := ⟨"a.cpp", ⟨"demo", "Debug", "x64"⟩, signature, some line⟩
  artifact := artifactPath "" "1" mode
  guard := ⟨"a.cpp", ⟨"demo", "Debug", "x64"⟩, options⟩
  permit := ⟨"demo|Debug|x64"⟩

/-- A listing that such a session shows. -/
def shownListing (location : Location) : Shown :=
  ⟨"1", .assembly, artifactPath "" "1" .assembly, artifactPath "" "1" .assembly, location⟩

/-- Options of a project that is optimised as a whole and whose listing lies elsewhere. -/
def listingOptions : Options where
  wholeProgramOptimization := true
  assemblerListingLocation := some "old.asm"
  objectFile := some "a.o"

/-- The file is there when it is looked for. -/
theorem configured_file_there_of_listingOptions :
    ∃ s w es a, Run (Terminal.host (writingMachine [])) { artifactDir := "" } (fun _ _ => False)
        { id := "1", mode := .assembly } (desk listingOptions (bytesOf "f();") 1 none) s w es ∧
      s.outcome? = some (.shown a) ∧
      (∀ work wait, s.phase ≠ .waiting work wait) ∧
      ∀ e, s.outcome? = some (.failed e) → e.kind ≠ .artifactMissing := by
  obtain ⟨es, r⟩ := exists_run_toTheEnd [] .assembly (desk listingOptions (bytesOf "f();") 1 none)
    (deskWork .assembly listingOptions "" "f();") (by decide +kernel) (by decide +kernel)
    (by decide +kernel) (by decide +kernel)
  have hshown : (toTheEnd [] .assembly (desk listingOptions (bytesOf "f();") 1 none)
      (deskWork .assembly listingOptions "" "f();")).1.outcome? =
        some (.shown (shownListing ⟨false, false, 0, 1⟩)) := by
    decide +kernel
  obtain ⟨-, hthere⟩ := configured_file_there (writingMachine_leavesOperand []) r
  obtain ⟨hwaits, hfails⟩ := hthere (.inr rfl)
  exact ⟨_, _, es, _, r, hshown, hwaits, hfails⟩

/-- Options that ask for preprocessed source. -/
def preprocessingOptions : Options where
  generatePreprocessedFile := .yes

/-- Where a project asks for preprocessed source, nobody asks for a listing: the compiler is given
`-E` and no operand, it succeeds, and the session does not find its file. -/
theorem listing_missing :
    (writingMachine []).LeavesOperand ∧
      ¬ Selects .assembly "devutils-1.asm"
        (preprocessingOptions.configured .assembly "devutils-1.asm").arguments ∧
      ∃ s w es, Run (Terminal.host (writingMachine [])) { artifactDir := "" } (fun _ _ => False)
          { id := "1", mode := .assembly } (desk preprocessingOptions (bytesOf "f();") 1 none) s w
          es ∧
        w.host.launches = [["-E", "a.cpp"]] ∧
        s.outcome? = some (.failed (.artifactMissing "devutils-1.asm")) := by
  refine ⟨writingMachine_leavesOperand [], ?_, ?_⟩
  · rw [Options.selects_configured_iff]
    decide
  · obtain ⟨es, r⟩ := exists_run_toTheEnd [] .assembly
      (desk preprocessingOptions (bytesOf "f();") 1 none)
      (deskWork .assembly preprocessingOptions "" "f();") (by decide +kernel) (by decide +kernel)
      (by decide +kernel) (by decide +kernel)
    exact ⟨_, _, es, r, by decide +kernel, by decide +kernel⟩

end Session

end BuildLens
