/-
The steps of a session.

Every step of a session does one of a few things with what the sessions share.  This file
says so once, for each of them, as an inversion of `Session.step`:

* `Move.gateMove`: a step leaves the gate alone, or claims a free target, or frees the
  target that the session holds, and what claims or frees a target asks the host nothing;
* `Move.optionMove`: a step leaves all options alone, or changes those of a file whose old
  options it has just read, or puts the old options of such a file back;
* `Move.asks`: a step asks the host only what belongs to the phase of the session;
* `Move.rank`: a step brings the session nearer to its end, unless the session waits
  and goes on waiting.

From the last one it follows that a session that has been polled waits or has ended.
-/
import BuildLens.Proofs.Session.Capturing

namespace BuildLens

open BuildLens.Text

/-! ## What a session holds, and what it may ask -/

/-- The options that are changed in a phase, with what belongs to them. -/
def Phase.work? : Phase → Option Work
  | .configured work => some work
  | .refused work => some work
  | .waiting work _ => some work
  | .compiled work _ => some work
  | .stopped work _ => some work
  | _ => none

/-- The permit that is held in a phase. -/
def Phase.permit? : Phase → Option Permit
  | .admitted _ _ permit => some permit
  | .leaving permit _ => some permit
  | phase => phase.work?.map Work.permit

/-- What a session may ask in a phase. -/
def Phase.mayAsk : Phase → HostCall → Bool
  | .fresh, c => c.isInquiry
  | .admitted _ _ _, .readOptions _ _ => true
  | .admitted _ _ _, .writeOptions _ _ _ => true
  | .configured _, .compileFile _ => true
  | .refused _, .buildProject _ => true
  | .compiled _ _, .writeOptions _ _ _ => true
  | .stopped _ _, .writeOptions _ _ _ => true
  | .locating _ _, .showStatus _ => true
  | .locating _ _, .openArtifact _ _ => true
  | .failing _, .showError _ _ => true
  | _, _ => false

lemma Exit.permit?_phase (exit : Exit) : exit.phase.permit? = none := by
  cases exit <;> rfl

lemma Exit.work?_phase (exit : Exit) : exit.phase.work? = none := by
  cases exit <;> rfl

lemma Phase.permit?_of_work? {phase : Phase} {work : Work} (h : phase.work? = some work) :
    phase.permit? = some work.permit := by
  cases phase <;> simp_all [Phase.work?, Phase.permit?]

namespace Session

variable {σ : Type}

@[simp] lemma goTo_phase (s : Session) (phase : Phase) : (s.goTo phase).phase = phase := rfl

@[simp] lemma goTo_id (s : Session) (phase : Phase) : (s.goTo phase).id = s.id := rfl

@[simp] lemma goTo_mode (s : Session) (phase : Phase) : (s.goTo phase).mode = s.mode := rfl

@[simp] lemma goTo_capture (s : Session) (phase : Phase) :
    (s.goTo phase).capture = s.capture := rfl

@[simp] lemma goTo_history (s : Session) (phase : Phase) :
    (s.goTo phase).history = s.history := rfl

@[simp] lemma enter_phase (s : Session) (stage : Stage) : (s.enter stage).phase = s.phase := rfl

@[simp] lemma enter_id (s : Session) (stage : Stage) : (s.enter stage).id = s.id := rfl

@[simp] lemma enter_mode (s : Session) (stage : Stage) : (s.enter stage).mode = s.mode := rfl

@[simp] lemma enter_capture (s : Session) (stage : Stage) :
    (s.enter stage).capture = s.capture := rfl

@[simp] lemma enter_history (s : Session) (stage : Stage) :
    (s.enter stage).history = s.history ++ [stage] := rfl

lemma phase_of_outcome? {s : Session} {o : Outcome} (ho : s.outcome? = some o) :
    s.phase = .ended o := by
  rw [outcome?] at ho
  split at ho
  next phase => rw [phase, Option.some.inj ho]
  next => exact absurd ho (by simp)

end Session

/-! ## Waiting -/

namespace Wait

variable {σ : Type}

lemma giveUp_world (seconds : Nat) (wait : Wait) (w : World σ) :
    ∃ allowance, (wait.giveUp seconds w).2 = { w with allowance } := by
  rw [giveUp]
  split
  · exact ⟨_, rfl⟩
  · split
    · exact ⟨_, rfl⟩
    · exact ⟨_, rfl⟩

/-- A look at the hub uses up some of the allowance and changes nothing else. -/
lemma look_world (w : World σ) (seconds : Nat) (wait : Wait) :
    ∃ allowance, (look w seconds wait).2.2 = { w with allowance } := by
  rw [look]
  split
  · exact ⟨_, rfl⟩
  · dsimp only
    split
    · exact ⟨_, rfl⟩
    · obtain ⟨allowance, hworld⟩ := giveUp_world seconds
        { wait with receiver := (w.hub.awaitOutcome wait.target.project w.allowance
            wait.receiver).2.1 }
        { w with allowance := (w.hub.awaitOutcome wait.target.project w.allowance
            wait.receiver).2.2 }
      exact ⟨allowance, hworld⟩

lemma kind_of_giveUp {seconds : Nat} {wait : Wait} {w : World σ} {e : SessionError}
    (he : (wait.giveUp seconds w).1 = some e) : e.kind = .compileFailed := by
  rw [giveUp] at he
  split at he
  · rw [← Option.some.inj he]; rfl
  · split at he
    · rw [← Option.some.inj he]; rfl
    · exact absurd he (by simp)

/-- A wait that ends without the end of a build counts as a failed compilation. -/
lemma kind_of_look (w : World σ) (seconds : Nat) (wait : Wait) {e : SessionError}
    (he : (look w seconds wait).1 = some (.error e)) : e.kind = .compileFailed := by
  rw [look] at he
  split at he
  · exact absurd he (by simp)
  · dsimp only at he
    split at he
    · exact absurd he (by simp)
    · obtain ⟨e', he', heq⟩ := Option.map_eq_some_iff.mp he
      rw [Except.error.injEq] at heq
      rw [← heq]
      exact kind_of_giveUp he'

end Wait

/-! ## Locating -/

namespace Session

variable {σ : Type} (h : Host σ) (config : SessionConfig) (s : Session)

/-- A session that locates, from a world on, reads some bytes from the file that it is about to
show, and shows it at the place that it finds in them. -/
inductive Shows (c : Capture) (artifact : String) (w : World σ) :
    Shown → Bytes → World σ → Prop
  | mk {path : String} {content : Bytes} {location : Location} {w₁ w₂ : World σ}
      (prepared : readable config s.mode artifact w = (.ok path, w₁))
      (read : w₁.files.read path = .ok content)
      (place : location =
        Locate.locate s.mode content c.signature.toList (c.line.map String.toList))
      (noted : w₂ = w₁ ∨ ∃ text, w₂ = w₁.tell h (.showStatus text)) :
      Shows c artifact w ⟨s.id, s.mode, path, artifact, location⟩ content
        (w₂.tell h (.openArtifact path location))

/-- What is shown in place of a file changes nothing but files. -/
lemma readable_world (mode : Mode) (artifact : String) (w : World σ) :
    ∃ files, (readable config mode artifact w).2 = { w with files } := by
  cases mode with
  | assembly => exact ⟨w.files, rfl⟩
  | preprocessed => exact ⟨_, rfl⟩

/-- Locating ends with a file that is shown, or it changes files only and leads to a failure that
is told next. -/
lemma locate_cases (c : Capture) (artifact : String) (w : World σ) :
    (∃ a content, Shows h config s c artifact w a content (s.locate h config c artifact w).2 ∧
      (s.locate h config c artifact w).1 =
        ((s.enter .locating).enter .succeeded).goTo (.ended (.shown a))) ∨
    ∃ e files, e.kind ≠ .sessionBusy ∧ s.locate h config c artifact w =
      ((s.enter .locating).goTo (.failing e), { w with files }) := by
  obtain ⟨files, hfiles⟩ := readable_world config s.mode artifact w
  rw [locate]
  split
  · split
    next e w₁ heq =>
      rw [enter_mode] at heq
      obtain rfl : w₁ = { w with files } := by rw [← hfiles, heq]
      exact .inr ⟨_, files, by simp [SessionError.ofIo], rfl⟩
    next path w₁ heq =>
      rw [enter_mode] at heq
      split
      next e =>
        obtain rfl : w₁ = { w with files } := by rw [← hfiles, heq]
        exact .inr ⟨_, files, by simp [SessionError.artifactUnreadable], rfl⟩
      next content hread =>
        refine .inl ⟨_, content, .mk heq hread rfl ?_, rfl⟩
        split
        · exact .inr ⟨_, rfl⟩
        · exact .inl rfl
  · exact .inr ⟨_, w.files, by simp [SessionError.artifactMissing], rfl⟩

section

variable {h config s} {c : Capture} {artifact : String} {a : Shown} {content : Bytes}
  {w w' : World σ}

/-- Showing a file changes files first.  Then it is noted that the function was not found, if so,
and the file is shown. -/
lemma Shows.asks {P : HostCall → Prop} (noting : ∀ text, P (.showStatus text))
    (opening : ∀ path location, P (.openArtifact path location))
    (shows : Shows h config s c artifact w a content w') :
    ∃ files, World.Asks h P { w with files } w' := by
  cases shows with
  | @mk path content location w₁ w₂ prepared read place noted =>
    obtain ⟨files, hfiles⟩ := readable_world config s.mode artifact w
    rw [prepared] at hfiles
    have hopen : World.Asks h P w₂ (w₂.tell h (.openArtifact path location)) :=
      .tell w₂ (opening path location)
    refine ⟨files, ?_⟩
    rw [← hfiles]
    rcases noted with rfl | ⟨text, rfl⟩
    · exact hopen
    · exact World.Asks.trans (.tell w₁ (noting text)) hopen

/-- So it has nothing to do with options or with the compiler. -/
lemma Shows.quiet (shows : Shows h config s c artifact w a content w') :
    ∃ files, World.Quiet h { w with files } w' :=
  shows.asks (fun _ => rfl) fun _ _ => rfl

end

/-! ## Steps as moves -/

/-- All that a step of a session can do.  Each kind of move tells from which phase to which
one it leads, what it asks the host, and how it changes what the sessions share. -/
inductive Move (h : Host σ) (config : SessionConfig) (s : Session) (w : World σ) :
    Session → World σ → Prop
  /-- The session does not find out what it is about. -/
  | lost {e : SessionError} {w' : World σ} (phase : s.phase = .fresh)
      (inquired : World.Inquired h w w') :
      Move h config s w ((s.enter .capturing).goTo (.failing e)) w'
  /-- It does find out. -/
  | found {c : Capture} {w' : World σ} (phase : s.phase = .fresh)
      (inquired : World.Inquired h w w') :
      Move h config s w ({ s.enter .capturing with capture := some c }.goTo (.captured c)) w'
  /-- The target is held by another session. -/
  | busy {c : Capture} (phase : s.phase = .captured c) (held : w.gate.isHeld c.target = true) :
      Move h config s w ((s.enter .configuring).goTo (.failing (.busy c.target))) w
  /-- The session claims the target, but there is no directory for the generated file. -/
  | barred {c : Capture} {e : IoError} {files : FileTree} (phase : s.phase = .captured c)
      (free : w.gate.isHeld c.target = false) :
      Move h config s w
        ((s.enter .configuring).goTo (.leaving ⟨c.target.gateKey⟩ (.fail (.ofIo e))))
        { w with gate := ⟨c.target.gateKey :: w.gate.held⟩, files }
  /-- The session claims the target. -/
  | admitted {c : Capture} {files : FileTree} (phase : s.phase = .captured c)
      (free : w.gate.isHeld c.target = false) :
      Move h config s w
        ({ s.enter .configuring with
            artifact := some (artifactPath config.artifactDir s.id s.mode) }.goTo
          (.admitted c (artifactPath config.artifactDir s.id s.mode) ⟨c.target.gateKey⟩))
        { w with gate := ⟨c.target.gateKey :: w.gate.held⟩, files }
  /-- The options cannot be read. -/
  | unread {c : Capture} {artifact : String} {permit : Permit} {e : HostError} {w' : World σ}
      (phase : s.phase = .admitted c artifact permit)
      (read : w.ask h (.readOptions c.file c.target) = (.error e, w')) :
      Move h config s w ((s.enter .restoring).goTo (.leaving permit (.fail (.ofHost e)))) w'
  /-- The changed options cannot be written, and the old ones are written back. -/
  | unwritten {c : Capture} {artifact : String} {permit : Permit} {saved : Options}
      {e : HostError} {w₁ w₂ : World σ} (phase : s.phase = .admitted c artifact permit)
      (read : w.ask h (.readOptions c.file c.target) = (.ok saved, w₁))
      (write : w₁.ask h (.writeOptions c.file c.target (saved.configured s.mode artifact)) =
        (.error e, w₂)) :
      Move h config s w ((s.enter .restoring).goTo (.leaving permit (.fail (.ofHost e))))
        (w₂.ask h (.writeOptions c.file c.target saved)).2
  /-- The options are changed. -/
  | changed {c : Capture} {artifact : String} {permit : Permit} {saved : Options}
      {w₁ w₂ : World σ} (phase : s.phase = .admitted c artifact permit)
      (read : w.ask h (.readOptions c.file c.target) = (.ok saved, w₁))
      (write : w₁.ask h (.writeOptions c.file c.target (saved.configured s.mode artifact)) =
        (.ok (), w₂)) :
      Move h config s w
        (s.goTo (.configured ⟨c, artifact, ⟨c.file, c.target, saved⟩, permit⟩)) w₂
  /-- The compiler has run. -/
  | compiled {work : Work} {success : Bool} {w' : World σ} (phase : s.phase = .configured work)
      (ask : w.ask h (.compileFile work.capture.file) = (.ran success, w')) :
      Move h config s w
        ((s.enter .compiling).goTo
          (.compiled work (Wait.failureOf work.capture.file (.ok success)))) w'
  /-- The host does not compile single files. -/
  | refused {work : Work} {e : HostError} {w' : World σ} (phase : s.phase = .configured work)
      (ask : w.ask h (.compileFile work.capture.file) = (.refused e, w')) :
      Move h config s w ((s.enter .compiling).goTo (.refused work)) w'
  /-- The compiler breaks down. -/
  | crashed {work : Work} {w' : World σ} (phase : s.phase = .configured work)
      (ask : w.ask h (.compileFile work.capture.file) = (.crashed, w')) :
      Move h config s w ((s.enter .compiling).goTo (.stopped work .crashed)) w'
  /-- The build of the project cannot be started. -/
  | unbuilt {work : Work} {e : HostError} {hub hub' : Hub} {w' : World σ}
      (phase : s.phase = .refused work)
      (ask : World.ask h { w with hub } (.buildProject work.capture.target) = (.error e, w')) :
      Move h config s w (s.goTo (.compiled work (some (.ofHost e)))) { w' with hub := hub' }
  /-- The build of the project starts. -/
  | built {work : Work} {wait : Wait} {hub : Hub} {w' : World σ}
      (phase : s.phase = .refused work)
      (ask : World.ask h { w with hub } (.buildProject work.capture.target) = (.ok (), w')) :
      Move h config s w (s.goTo (.waiting work wait)) w'
  /-- The session goes on waiting. -/
  | waits {work : Work} {wait wait' : Wait} {allowance : Nat}
      (phase : s.phase = .waiting work wait) :
      Move h config s w (s.goTo (.waiting work wait')) { w with allowance }
  /-- The wait is over. -/
  | woken {work : Work} {wait : Wait} {result : Except SessionError Bool} {allowance : Nat}
      {hub : Hub} (phase : s.phase = .waiting work wait)
      (kind : ∀ e, result = .error e → e.kind = .compileFailed) :
      Move h config s w
        (s.goTo (.compiled work (Wait.failureOf work.capture.file result)))
        { w with allowance, hub }
  /-- The options are put back after the compiler is done. -/
  | restored {work : Work} {failure : Option SessionError} {r : Except HostError Unit}
      {w' : World σ} (phase : s.phase = .compiled work failure)
      (write : w.ask h (.writeOptions work.guard.file work.guard.target work.guard.saved) =
        (r, w')) :
      Move h config s w
        ((s.enter .restoring).goTo (.leaving work.permit (exitOf work failure r))) w'
  /-- The options are put back before the compiler is done. -/
  | aborted {work : Work} {o : Outcome} (phase : s.phase = .stopped work o) :
      Move h config s w (s.goTo (.leaving work.permit (.stop o)))
        (w.ask h (.writeOptions work.guard.file work.guard.target work.guard.saved)).2
  /-- The target is freed. -/
  | left {permit : Permit} {exit : Exit} (phase : s.phase = .leaving permit exit) :
      Move h config s w (s.goTo exit.phase) (w.release permit)
  /-- The generated file is shown. -/
  | shown {c : Capture} {artifact : String} {a : Shown} {content : Bytes} {w' : World σ}
      (phase : s.phase = .locating c artifact)
      (shows : Shows h config s c artifact w a content w') :
      Move h config s w
        (((s.enter .locating).enter .succeeded).goTo (.ended (.shown a))) w'
  /-- There is no generated file to show. -/
  | missed {c : Capture} {artifact : String} {e : SessionError} {files : FileTree}
      (phase : s.phase = .locating c artifact) (kind : e.kind ≠ .sessionBusy) :
      Move h config s w ((s.enter .locating).goTo (.failing e)) { w with files }
  /-- The user is told why the session fails. -/
  | told {e : SessionError} (phase : s.phase = .failing e) :
      Move h config s w ((s.enter .failed).goTo (.ended (.failed e)))
        (w.tell h (.showError e.message errorTitle))
  /-- The session has ended. -/
  | rests {o : Outcome} (phase : s.phase = .ended o) : Move h config s w s w

/-- A step is one of the moves. -/
theorem move (w : World σ) :
    Move h config s w (s.step h config w).1 (s.step h config w).2 := by
  cases hphase : s.phase with
  | fresh =>
    have inquired := Capture.take_inquired h config w
    simp only [step, hphase, begin]
    rcases htake : Capture.take h config w with ⟨e | c, w'⟩
    · rw [htake] at inquired
      exact .lost hphase inquired
    · rw [htake] at inquired
      exact .found hphase inquired
  | captured c =>
    simp only [step, hphase, claim, Gate.acquire]
    cases hheld : w.gate.isHeld c.target with
    | true => exact .busy hphase hheld
    | false =>
      simp only [Bool.false_eq_true, if_false]
      rcases w.files.createDirectories config.artifactDir with ⟨e | ⟨⟩, files⟩
      · exact .barred hphase hheld
      · exact .admitted hphase hheld
  | admitted c artifact permit =>
    simp only [step, hphase, changeOptions, Guard.acquire]
    rcases hread : w.ask h (.readOptions c.file c.target) with ⟨e | saved, w₁⟩
    · exact .unread hphase hread
    · dsimp only
      rcases hwrite : w₁.ask h (.writeOptions c.file c.target (saved.configured s.mode artifact))
        with ⟨e | ⟨⟩, w₂⟩
      · exact .unwritten hphase hread hwrite
      · exact .changed hphase hread hwrite
  | configured work =>
    simp only [step, hphase, compile]
    rcases hask : w.ask h (.compileFile work.capture.file) with ⟨success | e | _, w'⟩
    · exact .compiled hphase hask
    · exact .refused hphase hask
    · exact .crashed hphase hask
  | refused work =>
    simp only [step, hphase, build, Wait.start]
    rcases hask : World.ask h { w with hub := w.hub.subscribe.1 }
      (.buildProject work.capture.target) with ⟨e | ⟨⟩, w'⟩
    · exact .unbuilt hphase hask
    · exact .built hphase hask
  | waiting work wait =>
    obtain ⟨allowance, hworld⟩ := Wait.look_world w config.timeoutSeconds wait
    have kind : ∀ e, (wait.look w config.timeoutSeconds).1 = some (.error e) →
        e.kind = .compileFailed := fun e he => Wait.kind_of_look _ _ _ he
    simp only [step, hphase, proceed]
    rcases hlook : wait.look w config.timeoutSeconds with ⟨_ | result, wait', w'⟩
    · rw [hlook] at hworld
      subst hworld
      exact .waits hphase
    · rw [hlook] at hworld kind
      subst hworld
      exact .woken hphase fun e he => kind e (by rw [he])
  | compiled work failure =>
    simp only [step, hphase]
    exact .restored hphase rfl
  | stopped work o =>
    simp only [step, hphase]
    exact .aborted hphase
  | leaving permit exit =>
    simp only [step, hphase]
    exact .left hphase
  | locating c artifact =>
    simp only [step, hphase]
    rcases locate_cases h config s c artifact w with ⟨a, content, shows, ha⟩ | ⟨e, files, kind, he⟩
    · rw [ha]
      exact .shown hphase shows
    · rw [he]
      exact .missed hphase kind
  | failing e =>
    simp only [step, hphase]
    exact .told hphase
  | ended o =>
    simp only [step, hphase]
    exact .rests hphase

/-! ## What a step does to the session -/

section

variable {h config s} {s' : Session} {w w' : World σ}

/-- A session keeps its name and its mode. -/
lemma Move.id_mode (m : Move h config s w s' w') : s'.id = s.id ∧ s'.mode = s.mode := by
  cases m <;> exact ⟨rfl, rfl⟩

/-- A session that has begun does not change what it is about. -/
lemma Move.capture (m : Move h config s w s' w') (hp : s.phase ≠ .fresh) :
    s'.capture = s.capture := by
  cases m with
  | lost phase => exact absurd phase hp
  | found phase => exact absurd phase hp
  | _ => rfl

/-- What a session asks in the course of a move belongs to its phase. -/
lemma Move.asks (m : Move h config s w s' w') :
    ∃ es, w'.log = w.log ++ es ∧ ∀ e ∈ es, s.phase.mayAsk e.call = true := by
  cases m with
  | lost phase inquired | found phase inquired =>
    obtain ⟨es, hes⟩ := inquired
    rw [phase]
    exact ⟨es, hes.log, hes.mem⟩
  | shown phase shows =>
    obtain ⟨files, es, hes⟩ := shows.asks (P := fun c => s.phase.mayAsk c = true)
      (fun _ => by rw [phase]; rfl) fun _ _ => by rw [phase]; rfl
    exact ⟨es, hes.log, hes.mem⟩
  | unread phase read => exact ⟨_, World.log_of_ask read, by simp [phase, Phase.mayAsk]⟩
  | unwritten phase read write =>
    exact ⟨_, World.log_trans (World.log_of_ask read)
      (World.log_trans (World.log_of_ask write) (World.log_ask h _ _)),
      by simp [phase, Phase.mayAsk]⟩
  | changed phase read write =>
    exact ⟨_, World.log_trans (World.log_of_ask read) (World.log_of_ask write),
      by simp [phase, Phase.mayAsk]⟩
  | compiled phase ask | refused phase ask | crashed phase ask | restored phase ask =>
    exact ⟨_, World.log_of_ask ask, by simp [phase, Phase.mayAsk]⟩
  | unbuilt phase ask | built phase ask =>
    have hlog := World.log_of_ask ask
    exact ⟨_, hlog, by simp [phase, Phase.mayAsk]⟩
  | aborted phase | told phase => exact ⟨_, rfl, by simp [phase, Phase.mayAsk]⟩
  | busy | barred | admitted | waits | woken | left | missed | rests =>
    exact ⟨[], (List.append_nil _).symm, by simp⟩

/-- The log grows with every move. -/
lemma Move.log (m : Move h config s w s' w') : ∃ es, w'.log = w.log ++ es := by
  obtain ⟨es, hes, -⟩ := m.asks
  exact ⟨es, hes⟩

/-- Only a session that has freed its target after it had compiled begins to locate. -/
lemma Move.locating (m : Move h config s w s' w') (hs : .locating ∈ s'.history) :
    .locating ∈ s.history ∨ ∃ c artifact, s.phase = .locating c artifact := by
  cases m with
  | shown phase => exact .inr ⟨_, _, phase⟩
  | missed phase => exact .inr ⟨_, _, phase⟩
  | _ => exact .inl (by simpa using hs)

/-- A move brings a session nearer to its end, unless the session has ended or goes on
waiting. -/
lemma Move.rank (m : Move h config s w s' w') :
    s'.phase.rank < s.phase.rank ∨ (s' = s ∧ s.phase.rank = 0) ∨
      s.wait?.isSome = true ∧ s'.wait?.isSome = true := by
  cases m with
  | waits phase => exact .inr (.inr ⟨by simp [wait?, phase], rfl⟩)
  | rests phase => exact .inr (.inl ⟨rfl, by rw [phase]; rfl⟩)
  | @left _ exit phase =>
    left
    rw [phase]
    cases exit <;> simp [Exit.phase, Phase.rank]
  | lost phase | found phase | busy phase | barred phase | admitted phase | unread phase
  | unwritten phase | changed phase | compiled phase | refused phase | crashed phase
  | unbuilt phase | built phase | woken phase | restored phase | aborted phase
  | shown phase | missed phase | told phase =>
    left
    rw [phase]
    simp [Phase.rank]

end

/-- The log grows as a session takes several steps. -/
lemma advance_log (n : Nat) (w : World σ) :
    ∃ es, (s.advance h config n w).2.log = w.log ++ es := by
  induction n generalizing s w with
  | zero => exact ⟨[], (List.append_nil _).symm⟩
  | succ n ih =>
    obtain ⟨es, hes⟩ := (move h config s w).log
    rw [advance]
    dsimp only
    split
    · exact ⟨es, hes⟩
    · obtain ⟨fs, hfs⟩ := ih _ (s.step h config w).2
      exact ⟨es ++ fs, World.log_trans hes hfs⟩

/-- A session that takes as many steps as it can waits or has ended. -/
lemma advance_rests (n : Nat) (w : World σ) (hn : s.phase.rank ≤ n) :
    (s.advance h config n w).1.phase.rank = 0 ∨
      (s.advance h config n w).1.wait?.isSome = true := by
  induction n generalizing s w with
  | zero => exact .inl (Nat.le_zero.mp hn)
  | succ n ih =>
    rw [advance]
    dsimp only
    split
    next hwaits => exact .inr (Bool.and_eq_true_iff.mp hwaits).2
    next hwaits =>
      -- it did not look in vain, so it came nearer to its end
      refine ih _ _ ?_
      rcases (move h config s w).rank with hrank | ⟨hs, hrank⟩ | hw
      · omega
      · rw [hs, hrank]
        exact Nat.zero_le n
      · exact absurd (Bool.and_eq_true_iff.mpr hw) hwaits

/-- A session that has been polled waits or has ended. -/
theorem poll_rests (w : World σ) :
    (∃ o, (s.poll h config w).1.outcome? = some o) ∨
      ∃ wait, (s.poll h config w).1.wait? = some wait := by
  rcases advance_rests h config s s.stepsLeft w (Nat.le_refl _) with hrank | hwaits
  · left
    rw [poll, outcome?]
    cases hphase : (s.advance h config s.stepsLeft w).1.phase with
    | ended o => exact ⟨o, rfl⟩
    | _ => rw [hphase] at hrank; exact absurd hrank (by simp [Phase.rank])
  · exact .inr (Option.isSome_iff_exists.mp hwaits)

/-! ## What a step does to the gate and to the options -/

/-- What becomes of the gate: it stays as it is, or a free target is claimed, or the target
that the session holds is freed.  Nothing is asked while the gate changes. -/
inductive GateMove (s : Session) (w : World σ) (s' : Session) (w' : World σ) : Prop
  /-- The gate stays as it is. -/
  | keep (permit : s'.phase.permit? = s.phase.permit?) (gate : w'.gate = w.gate)
  /-- A free target is claimed. -/
  | claim (c : Capture) (phase : s.phase = .captured c)
      (free : w.gate.isHeld c.target = false)
      (permit : s'.phase.permit? = some ⟨c.target.gateKey⟩)
      (gate : w'.gate = ⟨c.target.gateKey :: w.gate.held⟩) (log : w'.log = w.log)
  /-- The target that the session holds is freed. -/
  | free (permit : Permit) (exit : Exit) (phase : s.phase = .leaving permit exit)
      (next : s'.phase = exit.phase) (gate : w'.gate = w.gate.release permit)
      (log : w'.log = w.log)

/-- What becomes of the options: they stay as they are, or those of the file that the session
is about are changed, or those that it has changed are put back. -/
inductive OptionMove {h : Host σ} (K : OptionStore h) (s : Session) (w : World σ)
    (s' : Session) (w' : World σ) : Prop
  /-- All options stay as they are. -/
  | keep (work : s'.phase.work? = s.phase.work?)
      (same : ∀ file target, K.options w'.host file target = K.options w.host file target)
  /-- Options that have just been read are changed. -/
  | change (c : Capture) (artifact : String) (permit : Permit) (saved : Options)
      (phase : s.phase = .admitted c artifact permit)
      (work : s'.phase.work? = some ⟨c, artifact, ⟨c.file, c.target, saved⟩, permit⟩)
      (read : K.options w.host c.file c.target = saved)
      (written : K.written w'.host c.file c.target)
      (same : ∀ file target, ¬ (file = c.file ∧ target = c.target) →
        K.options w'.host file target = K.options w.host file target)
  /-- Changed options are put back. -/
  | restore (work : Work) (before : s.phase.work? = some work) (after : s'.phase.work? = none)
      (back : K.written w.host work.guard.file work.guard.target →
        K.options w'.host work.guard.file work.guard.target = work.guard.saved)
      (same : ∀ file target, ¬ (file = work.guard.file ∧ target = work.guard.target) →
        K.options w'.host file target = K.options w.host file target)

section

variable {h config s} {s' : Session} {w w' : World σ}

lemma Move.gateMove (m : Move h config s w s' w') : GateMove s w s' w' := by
  cases m with
  | lost phase inquired => exact .keep (by rw [phase]; rfl) inquired.gate
  | found phase inquired => exact .keep (by rw [phase]; rfl) inquired.gate
  | barred phase free => exact .claim _ phase free rfl rfl rfl
  | admitted phase free => exact .claim _ phase free rfl rfl rfl
  | unread phase read => exact .keep (by rw [phase]; rfl) (World.gate_of_ask read)
  | unwritten phase read write =>
    have hgate := (World.gate_of_ask write).trans (World.gate_of_ask read)
    exact .keep (by rw [phase]; rfl) hgate
  | changed phase read write =>
    have hgate := (World.gate_of_ask write).trans (World.gate_of_ask read)
    exact .keep (by rw [phase]; rfl) hgate
  | compiled phase ask | refused phase ask | crashed phase ask | unbuilt phase ask
  | built phase ask | restored phase ask =>
    have hgate := World.gate_of_ask ask
    exact .keep (by rw [phase]; rfl) hgate
  | busy phase => exact .keep (by rw [phase]; rfl) rfl
  | waits phase => exact .keep (by rw [phase]; rfl) rfl
  | woken phase => exact .keep (by rw [phase]; rfl) rfl
  | aborted phase => exact .keep (by rw [phase]; rfl) rfl
  | left phase => exact .free _ _ phase rfl rfl rfl
  | shown phase shows =>
    obtain ⟨files, quiet⟩ := shows.quiet
    exact .keep (by rw [phase]; rfl) quiet.gate
  | missed phase => exact .keep (by rw [phase]; rfl) rfl
  | told phase => exact .keep (by rw [phase]; rfl) rfl
  | rests phase => exact .keep rfl rfl

lemma Move.optionMove (m : Move h config s w s' w') (K : OptionStore h) :
    OptionMove K s w s' w' := by
  cases m with
  | lost phase inquired | found phase inquired =>
    exact .keep (by rw [phase]; rfl) fun _ _ => K.options_quiet inquired.quiet
  | busy phase => exact .keep (by rw [phase]; rfl) fun _ _ => rfl
  | barred phase => exact .keep (by rw [phase]; rfl) fun _ _ => rfl
  | admitted phase => exact .keep (by rw [phase]; rfl) fun _ _ => rfl
  | unread phase read =>
    exact .keep (by rw [phase]; rfl) fun _ _ => K.options_ask read (by simp)
  | @unwritten c artifact permit saved e w₁ w₂ phase read write =>
    refine .keep (by rw [phase]; rfl) fun file target => ?_
    have hread : K.options w.host c.file c.target = saved :=
      K.options_read (World.answer_of_ask read)
    have hw₁ : K.options w₁.host file target = K.options w.host file target :=
      K.options_ask read (by simp)
    by_cases hfile : file = c.file ∧ target = c.target
    · -- the second write follows a write, so it takes effect
      obtain ⟨rfl, rfl⟩ := hfile
      rw [hread]
      refine K.options_write ?_
      rw [World.host_of_ask write]
      exact K.written_write
    · have hne : ∀ o o', HostCall.writeOptions c.file c.target o ≠ .writeOptions file target o' :=
        fun o o' heq => hfile (by cases heq; exact ⟨rfl, rfl⟩)
      have hw₂ : K.options w₂.host file target = K.options w₁.host file target :=
        K.options_ask write (hne _)
      exact (K.options_keep (hne _)).trans (hw₂.trans hw₁)
  | @changed c artifact permit saved w₁ w₂ phase read write =>
    refine .change c artifact permit saved phase rfl
      (K.options_read (World.answer_of_ask read)) ?_ fun file target hfile => ?_
    · rw [World.host_of_ask write]
      exact K.written_write
    · have hw₁ : K.options w₁.host file target = K.options w.host file target :=
        K.options_ask read (by simp)
      rw [← hw₁]
      exact K.options_ask write fun o heq => hfile (by cases heq; exact ⟨rfl, rfl⟩)
  | compiled phase ask | refused phase ask | crashed phase ask | unbuilt phase ask
  | built phase ask =>
    refine .keep (by rw [phase]; rfl) fun file target => ?_
    have hhost := World.host_of_ask ask
    exact (congrArg (K.options · file target) hhost).trans (K.options_keep (by simp))
  | waits phase => exact .keep (by rw [phase]; rfl) fun _ _ => rfl
  | woken phase => exact .keep (by rw [phase]; rfl) fun _ _ => rfl
  | restored phase write =>
    refine .restore _ (by rw [phase]; rfl) rfl (fun hwritten => ?_) fun file target hfile => ?_
    · rw [World.host_of_ask write]
      exact K.options_write hwritten
    · exact K.options_ask write fun o heq => hfile (by cases heq; exact ⟨rfl, rfl⟩)
  | aborted phase =>
    refine .restore _ (by rw [phase]; rfl) rfl (fun hwritten => ?_) fun file target hfile => ?_
    · exact K.options_write hwritten
    · exact K.options_keep fun o heq => hfile (by cases heq; exact ⟨rfl, rfl⟩)
  | @left _ exit phase =>
    refine .keep ?_ fun _ _ => rfl
    rw [phase]
    exact exit.work?_phase
  | shown phase shows =>
    obtain ⟨files, quiet⟩ := shows.quiet
    refine .keep (by rw [phase]; rfl) fun _ _ => ?_
    rw [K.options_quiet quiet]
  | missed phase => exact .keep (by rw [phase]; rfl) fun _ _ => rfl
  | told phase => exact .keep (by rw [phase]; rfl) fun _ _ => K.options_keep (by simp)
  | rests phase => exact .keep rfl fun _ _ => rfl

/-- A host forgets that options were written only when a session reads them that has not
changed any. -/
lemma Move.written (m : Move h config s w s' w') (K : OptionStore h) {file : String}
    {target : Target} (hc : ∀ c artifact permit, s.phase = .admitted c artifact permit →
      c.target ≠ target) (hw : K.written w.host file target) :
    K.written w'.host file target := by
  have hread : ∀ {c : Capture} {artifact : String} {permit : Permit},
      s.phase = .admitted c artifact permit →
        HostCall.readOptions c.file c.target ≠ .readOptions file target := by
    intro c artifact permit phase heq
    cases heq
    exact hc c artifact permit phase rfl
  cases m with
  | lost phase inquired | found phase inquired => exact K.written_quiet inquired.quiet hw
  | unread phase read => exact K.written_ask read (hread phase) hw
  | unwritten phase read write =>
    have hw₁ := K.written_ask read (hread phase) hw
    exact K.written_keep (by simp) (K.written_ask write (by simp) hw₁)
  | changed phase read write =>
    have hw₁ := K.written_ask read (hread phase) hw
    exact K.written_ask write (by simp) hw₁
  | compiled phase ask | refused phase ask | crashed phase ask | unbuilt phase ask
  | built phase ask | restored phase ask =>
    have hw' := K.written_ask ask (by simp) hw
    exact hw'
  | aborted phase => exact K.written_keep (by simp) hw
  | shown phase shows =>
    obtain ⟨files, quiet⟩ := shows.quiet
    refine K.written_quiet quiet ?_
    exact hw
  | told phase => exact K.written_keep (by simp) hw
  | busy | barred | admitted | waits | woken | left | missed | rests => exact hw

end

end Session
end BuildLens
