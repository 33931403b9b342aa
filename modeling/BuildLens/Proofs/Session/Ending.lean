/-
The ending of a session.

When a session has ended by itself, everybody agrees on how: its stages, its outcome, the user,
who has been told once, and the gate, which is as it was before.

* `Phase.histories` gives the stages that a session can have entered in each of its phases, and
  `Phase.Told` what it has told the user; no move breaks this `Story` (`Story.move`);
* `GateKept` follows a target at the gate: it is held as at the start, unless the session has
  claimed it itself, and then it was free at the start;
* `Run.shown` goes back from a file that was shown to the bytes that were read from it.

The main result is `ending_of_run`.
-/
import BuildLens.Proofs.Session.Course

namespace BuildLens

open BuildLens.Text

/-! ## Stages -/

namespace Stage

/-- The stages of a session that fails. -/
def failures : List (List Stage) :=
  [[.capturing, .failed],
    [.capturing, .configuring, .failed],
    [.capturing, .configuring, .restoring, .failed],
    [.capturing, .configuring, .compiling, .restoring, .failed],
    [.capturing, .configuring, .compiling, .restoring, .locating, .failed]]

/-- The stages of a session that shows a file. -/
def success : List Stage :=
  [.capturing, .configuring, .compiling, .restoring, .locating, .succeeded]

end Stage

/-- The stages of a session that is broken off with an outcome. -/
def Outcome.histories : Outcome → List (List Stage)
  | .crashed => [[.capturing, .configuring, .compiling]]
  | .cancelled => [[.capturing, .configuring, .compiling]]
  | _ => []

/-- The stages that a session can have entered in a phase. -/
def Phase.histories : Phase → List (List Stage)
  | .fresh => [[]]
  | .captured _ => [[.capturing]]
  | .admitted _ _ _ => [[.capturing, .configuring]]
  | .configured _ => [[.capturing, .configuring]]
  | .refused _ => [[.capturing, .configuring, .compiling]]
  | .waiting _ _ => [[.capturing, .configuring, .compiling]]
  | .compiled _ _ => [[.capturing, .configuring, .compiling]]
  | .stopped _ o => o.histories
  | .leaving _ (.locate _ _) => [[.capturing, .configuring, .compiling, .restoring]]
  | .leaving _ (.fail _) =>
    [[.capturing, .configuring],
      [.capturing, .configuring, .restoring],
      [.capturing, .configuring, .compiling, .restoring]]
  | .leaving _ (.stop o) => o.histories
  | .locating _ _ => [[.capturing, .configuring, .compiling, .restoring]]
  | .failing _ => Stage.failures.map List.dropLast
  | .ended (.failed _) => Stage.failures
  | .ended (.shown _) => [Stage.success]
  | .ended o => o.histories

/-- What a session has told the user in a phase. -/
def Phase.Told (es : List Exchange) : Phase → Prop
  | .ended (.failed e) => verdicts es = [⟨.showError e.message Session.errorTitle, ()⟩]
  | .ended (.shown a) => ∃ answer, verdicts es = [⟨.openArtifact a.path a.location, answer⟩]
  | _ => verdicts es = []

namespace Session

variable {σ : Type} {h : Host σ} {config : SessionConfig} {s s' : Session} {w w' : World σ}

/-- A move goes on with the stages. -/
lemma Move.histories (m : Move h config s w s' w') (hs : s.history ∈ s.phase.histories) :
    s'.history ∈ s'.phase.histories := by
  cases m with
  | lost phase | found phase | busy phase | barred phase | admitted phase | unread phase
  | unwritten phase | changed phase | compiled phase | refused phase | crashed phase
  | unbuilt phase | built phase | waits phase | woken phase | shown phase | missed phase =>
    rw [phase] at hs
    have hhistory := List.mem_singleton.mp hs
    simp [hhistory, Phase.histories, Outcome.histories, Stage.failures, Stage.success]
  | @restored work failure r _ phase =>
    rw [phase] at hs
    have hhistory := List.mem_singleton.mp hs
    rcases failure with _ | e
    · rcases r with e | ⟨⟩ <;> simp [hhistory, exitOf, Phase.histories]
    · simp [hhistory, exitOf, Phase.histories]
  | aborted phase =>
    rw [phase] at hs
    exact hs
  | @left permit exit phase =>
    rw [phase] at hs
    cases exit with
    | locate c artifact => exact hs
    | fail e =>
      have hsub : (Phase.leaving permit (.fail e)).histories ⊆ (Phase.failing e).histories := by
        simp [Phase.histories, Stage.failures]
      exact hsub hs
    | stop o =>
      cases o with
      | shown | failed => exact absurd hs List.not_mem_nil
      | crashed | cancelled => exact hs
  | told phase =>
    rw [phase] at hs
    obtain ⟨course, hcourse, heq⟩ := List.mem_map.mp hs
    have hlast : ∀ course ∈ Stage.failures, course.dropLast ++ [.failed] = course := by decide
    rw [goTo_history, enter_history, ← heq, hlast course hcourse]
    exact hcourse
  | rests phase => exact hs

/-! ## What the user is told -/

/-- What a move tells the user: nothing, or how the session has ended, if the session tells that
it fails or shows a file. -/
inductive VerdictMove (h : Host σ) (config : SessionConfig) (s : Session) (w : World σ)
    (s' : Session) (w' : World σ) : Prop
  /-- The session has ended before. -/
  | rests {o : Outcome} (phase : s.phase = .ended o) (same : s' = s) (world : w' = w)
  /-- Nothing is told, and the session goes on, or is broken off. -/
  | silent (live : ∀ o, s.phase ≠ .ended o)
      (next : ∀ o, s'.phase = .ended o → ∃ permit, s.phase = .leaving permit (.stop o))
      (calls : verdicts (w.callsSince w') = [])
  /-- The session fails. -/
  | failed (e : SessionError) (phase : s.phase = .failing e) (next : s'.phase = .ended (.failed e))
      (calls : verdicts (w.callsSince w') = [⟨.showError e.message errorTitle, ()⟩])
  /-- The session shows a file. -/
  | shown (c : Capture) (artifact : String) (a : Shown) (content : Bytes)
      (answer : Except HostError Unit) (phase : s.phase = .locating c artifact)
      (next : s'.phase = .ended (.shown a)) (shows : Shows h config s c artifact w a content w')
      (calls : verdicts (w.callsSince w') = [⟨.openArtifact a.path a.location, answer⟩])

lemma VerdictMove.of_log {es : List Exchange} (live : ∀ o, s.phase ≠ .ended o)
    (next : ∀ o, s'.phase ≠ .ended o) (hlog : w'.log = w.log ++ es) (hes : verdicts es = []) :
    VerdictMove h config s w s' w' :=
  .silent live (fun o ho => absurd ho (next o)) (by rw [World.callsSince_of_log hlog, hes])

/-- Whoever is shown a file is told nothing else but that. -/
lemma Shows.verdicts {c : Capture} {artifact : String} {a : Shown} {content : Bytes}
    (shows : Shows h config s c artifact w a content w') :
    ∃ answer, verdicts (w.callsSince w') = [⟨.openArtifact a.path a.location, answer⟩] := by
  cases shows with
  | @mk path content location w₁ w₂ prepared read place noted =>
    obtain ⟨files, hfiles⟩ := readable_world config s.mode artifact w
    rw [prepared] at hfiles
    have hlog₁ : w₁.log = w.log := by rw [show w₁ = { w with files } from hfiles]
    have hnoted : ∃ es, w₂.log = w.log ++ es ∧ BuildLens.verdicts es = [] := by
      rcases noted with rfl | ⟨text, rfl⟩
      · exact ⟨[], by rw [hlog₁, List.append_nil], rfl⟩
      · exact ⟨_, by rw [World.tell, World.log_ask, hlog₁], rfl⟩
    obtain ⟨es, hlog₂, hes⟩ := hnoted
    have hlog := World.log_trans hlog₂ (World.log_ask h w₂ (.openArtifact path location))
    refine ⟨(w₂.ask h (.openArtifact path location)).1, ?_⟩
    rw [World.tell, World.callsSince_of_log hlog, verdicts_append, hes]
    rfl

lemma Move.verdictMove (m : Move h config s w s' w') : VerdictMove h config s w s' w' := by
  cases m with
  | lost phase inquired | found phase inquired =>
    exact .silent (by simp [phase]) (by simp) inquired.verdicts_callsSince
  | busy phase | barred phase | admitted phase | waits phase | woken phase | missed phase =>
    exact .of_log (by simp [phase]) (by simp) (List.append_nil _).symm rfl
  | unread phase read =>
    exact .of_log (by simp [phase]) (by simp) (World.log_of_ask read) rfl
  | @unwritten c artifact permit saved e w₁ w₂ phase read write =>
    have hlog := World.log_trans (World.log_of_ask read) (World.log_trans
      (World.log_of_ask write) (World.log_ask h w₂ (.writeOptions c.file c.target saved)))
    exact .of_log (by simp [phase]) (by simp) hlog rfl
  | changed phase read write =>
    have hlog := World.log_trans (World.log_of_ask read) (World.log_of_ask write)
    exact .of_log (by simp [phase]) (by simp) hlog rfl
  | compiled phase ask | refused phase ask | crashed phase ask | restored phase ask =>
    exact .of_log (by simp [phase]) (by simp) (World.log_of_ask ask) rfl
  | unbuilt phase ask | built phase ask =>
    have hlog := World.log_of_ask ask
    exact .of_log (by simp [phase]) (by simp) hlog rfl
  | aborted phase =>
    exact .of_log (by simp [phase]) (by simp) (World.log_ask h w _) rfl
  | @left permit exit phase =>
    have hlog : (w.release permit).log = w.log ++ [] := (List.append_nil _).symm
    refine .silent (by simp [phase]) (fun o ho => ⟨permit, ?_⟩)
      (by rw [World.callsSince_of_log hlog]; rfl)
    cases exit with
    | locate | fail => simp [Exit.phase] at ho
    | stop o' =>
      obtain rfl : o' = o := by simpa [Exit.phase] using ho
      exact phase
  | shown phase shows =>
    obtain ⟨answer, hverdicts⟩ := shows.verdicts
    exact .shown _ _ _ _ answer phase rfl shows hverdicts
  | @told e phase =>
    refine .failed e phase rfl ?_
    rw [World.tell, World.callsSince_of_log (World.log_ask h w _)]
    rfl
  | rests phase => exact .rests phase rfl rfl

/-! ## The story of a session -/

/-- The stages of a session, and what it has told the user, are those of its phase. -/
structure Story (s : Session) (es : List Exchange) : Prop where
  history : s.history ∈ s.phase.histories
  told : s.phase.Told es

variable {es : List Exchange}

/-- Nobody has been told anything before the end. -/
lemma Story.verdicts (st : s.Story es) (live : ∀ o, s.phase ≠ .ended o) : verdicts es = [] := by
  have told := st.told
  cases phase : s.phase with
  | ended o => exact absurd phase (live o)
  | _ => rw [phase] at told; exact told

/-- A session is broken off only because the compiler broke down or somebody wished it. -/
lemma Story.stop {permit : Permit} {o : Outcome} (st : s.Story es)
    (phase : s.phase = .leaving permit (.stop o)) : o = .crashed ∨ o = .cancelled := by
  have hs := st.history
  rw [phase] at hs
  cases o with
  | crashed => exact .inl rfl
  | cancelled => exact .inr rfl
  | shown | failed => exact absurd hs List.not_mem_nil

/-- Every move keeps the story. -/
lemma Story.move (st : s.Story es) (m : Move h config s w s' w') :
    s'.Story (es ++ w.callsSince w') := by
  refine ⟨m.histories st.history, ?_⟩
  cases m.verdictMove with
  | rests phase same world =>
    rw [same, world, World.callsSince_self, List.append_nil]
    exact st.told
  | silent live next calls =>
    have hes : BuildLens.verdicts (es ++ w.callsSince w') = [] := by
      rw [verdicts_append, st.verdicts live, calls, List.append_nil]
    cases phase : s'.phase with
    | ended o =>
      -- who ends without a word was broken off
      obtain ⟨permit, hleaving⟩ := next o phase
      rcases st.stop hleaving with rfl | rfl <;> exact hes
    | _ => exact hes
  | failed e phase next calls =>
    rw [next]
    have hes := st.verdicts (by simp [phase])
    rw [Phase.Told, verdicts_append, hes, calls, List.nil_append]
  | shown c artifact a content answer phase next shows calls =>
    rw [next]
    have hes := st.verdicts (by simp [phase])
    exact ⟨answer, by rw [verdicts_append, hes, calls, List.nil_append]⟩

section

variable {others : World σ → World σ → Prop} {s₀ : Session} {w₀ : World σ}

lemma Run.story (hs₀ : s₀.Story []) (r : Run h config others s₀ w₀ s w es) : s.Story es := by
  induction r with
  | start => exact hs₀
  | @step s w _ _ ih => exact ih.move (Session.move h config s w)
  | interrupt _ phase ih =>
    have hs := ih.history
    rw [phase] at hs
    exact ⟨hs, ih.verdicts (by simp [phase])⟩
  | meanwhile _ _ _ ih => exact ih

end

/-! ## The gate -/

/-- The session holds a permit with the key of a target. -/
def Claims (s : Session) (t : Target) : Prop :=
  ∃ permit, s.phase.permit? = some permit ∧ permit.key = t.gateKey

/-- A target is held as it was at the start, unless the session has claimed it; then it was free
at the start. -/
structure GateKept (t : Target) (w₀ : World σ) (s : Session) (w : World σ) : Prop where
  free : s.Claims t → w₀.gate.isHeld t = false
  same : ¬ s.Claims t → w.gate.isHeld t = w₀.gate.isHeld t

variable {t : Target} {w₀ : World σ}

lemma GateKept.congr (g : GateKept t w₀ s w) (permit : s'.phase.permit? = s.phase.permit?)
    (gate : w'.gate.isHeld t = w.gate.isHeld t) : GateKept t w₀ s' w' := by
  have hclaims : s'.Claims t ↔ s.Claims t := by rw [Claims, Claims, permit]
  refine ⟨fun hs => g.free (hclaims.mp hs), fun hs => ?_⟩
  rw [gate, g.same fun h => hs (hclaims.mpr h)]

lemma GateKept.move (g : GateKept t w₀ s w) (m : Move h config s w s' w') :
    GateKept t w₀ s' w' := by
  cases m.gateMove with
  | keep permit gate => exact g.congr permit (by rw [gate])
  | claim c phase free permit gate =>
    have hsame : w.gate.isHeld t = w₀.gate.isHeld t :=
      g.same (by simp [Claims, phase, Phase.permit?, Phase.work?])
    by_cases hkey : c.target.gateKey = t.gateKey
    · -- the gate knows a target by its key only
      have hfree : w₀.gate.isHeld t = false := by
        rw [← hsame, Gate.isHeld, ← hkey]
        exact free
      exact ⟨fun _ => hfree, fun hs => absurd ⟨_, permit, hkey⟩ hs⟩
    · have hgate : w'.gate.isHeld t = w.gate.isHeld t := by
        rw [gate]
        simp [Gate.isHeld, Ne.symm hkey]
      refine ⟨fun hs => ?_, fun _ => hgate.trans hsame⟩
      obtain ⟨p, hp, hp'⟩ := hs
      rw [permit] at hp
      obtain rfl := Option.some.inj hp
      exact absurd hp' hkey
  | free permit exit phase next gate =>
    have hnone : ¬ s'.Claims t := by simp [Claims, next, exit.permit?_phase]
    refine ⟨fun hs => absurd hs hnone, fun _ => ?_⟩
    by_cases hkey : permit.key = t.gateKey
    · have hfree := g.free ⟨permit, by rw [phase]; rfl, hkey⟩
      rw [hfree, gate]
      simp [Gate.isHeld, Gate.release, hkey]
    · have hother : ¬ s.Claims t := by
        rintro ⟨p, hp, hp'⟩
        rw [phase] at hp
        obtain rfl := Option.some.inj hp
        exact hkey hp'
      rw [← g.same hother, gate]
      simp [Gate.isHeld, Gate.release, Ne.symm hkey]

section

variable {others : World σ → World σ → Prop} {s₀ : Session}

lemma Run.gateKept (hs₀ : s₀.phase = .fresh)
    (hothers : ∀ w w', others w w' → w'.gate.isHeld t = w.gate.isHeld t)
    (r : Run h config others s₀ w₀ s w es) : GateKept t w₀ s w := by
  induction r with
  | start => exact ⟨fun hs => by simp [Claims, hs₀, Phase.permit?, Phase.work?] at hs, fun _ => rfl⟩
  | @step s w _ _ ih => exact ih.move (Session.move h config s w)
  | interrupt _ phase ih => exact ih.congr (by rw [phase]; rfl) rfl
  | meanwhile _ _ change ih => exact ih.congr rfl (hothers _ _ change)

end

/-! ## The file that is shown -/

/-- Showing something leaves a file alone. -/
structure KeepsFile (h : Host σ) (path : String) : Prop where
  status : ∀ text x t, (h.reply (.showStatus text) x t).files.read path = t.read path
  opened : ∀ shown place x t,
    (h.reply (.openArtifact shown place) x t).files.read path = t.read path

lemma Shows.rawPath_eq {c : Capture} {artifact : String} {a : Shown} {content : Bytes}
    (shows : Shows h config s c artifact w a content w') : a.rawPath = artifact := by
  cases shows
  rfl

lemma Shows.location_eq {c : Capture} {artifact : String} {a : Shown} {content : Bytes}
    (shows : Shows h config s c artifact w a content w') :
    a.location =
      Locate.locate s.mode content c.signature.toList (c.line.map String.toList) := by
  cases shows with
  | mk prepared read place noted => exact place

lemma Shows.read {c : Capture} {artifact : String} {a : Shown} {content : Bytes}
    (shows : Shows h config s c artifact w a content w') (hkeeps : KeepsFile h a.path) :
    w'.files.read a.path = .ok content := by
  cases shows with
  | @mk path content location w₁ w₂ prepared read place noted =>
    have hread : w₂.files.read path = .ok content := by
      rcases noted with rfl | ⟨text, rfl⟩
      · exact read
      · exact (hkeeps.status text w₁.host w₁.files).trans read
    exact (hkeeps.opened path location w₂.host w₂.files).trans hread

section

variable {others : World σ → World σ → Prop} {s₀ : Session}

/-- A file that was shown has been read and shown in the last step of the run. -/
lemma Run.shown (hs₀ : s₀.phase = .fresh) (hstory : s₀.Story [])
    (r : Run h config others s₀ w₀ s w es) {a : Shown} (hphase : s.phase = .ended (.shown a)) :
    ∃ c content s₁ w₁ es₁, s.capture = some c ∧ Run h config others s₀ w₀ s₁ w₁ es₁ ∧
      s₁.phase = .locating c a.rawPath ∧ Shows h config s₁ c a.rawPath w₁ a content w := by
  induction r with
  | start =>
    rw [hs₀] at hphase
    exact absurd hphase (by simp)
  | @step s w es r ih =>
    have m := Session.move h config s w
    cases m.verdictMove with
    | rests phase same world =>
      rw [same] at hphase
      rw [same, world]
      exact ih hphase
    | silent live next calls =>
      obtain ⟨permit, hleaving⟩ := next _ hphase
      rcases (r.story hstory).stop hleaving with ho | ho <;> exact absurd ho (by simp)
    | failed e phase next =>
      rw [next] at hphase
      exact absurd hphase (by simp)
    | shown c artifact a' content answer phase next shows =>
      rw [next] at hphase
      obtain rfl : a' = a := by simpa using hphase
      obtain rfl := shows.rawPath_eq
      -- what the session is about is known from its account
      have account := r.account hs₀
      rw [Account, phase] at account
      refine ⟨c, content, s, w, es, ?_, r, phase, shows⟩
      rw [m.capture (by simp [phase])]
      exact account.1
  | interrupt _ phase ih => exact absurd hphase (by simp [Session.interrupt])
  | meanwhile _ phase _ ih =>
    rw [phase] at hphase
    exact absurd hphase (by simp)

/-- A session that has ended by itself has either failed or shown a file.

If it has failed, it has gone through the stages of a failure, and all that the user was told of it
is the message of the error.  If it has shown a file, it has gone through all stages but failure,
and all that the user was told of it is that file and the place in it, whatever came of that; the
place is where the function and the line that the session is about are found in the bytes that were
read from the file, which are still there if nobody has touched them while they were shown.

Either way a target is held by the gate as it was before the session. -/
theorem ending_of_run {id : String} {mode : Mode} {o : Outcome}
    (r : Run h config others { id, mode } w₀ s w es) (ho : s.outcome? = some o) :
    (∀ e, o = .failed e →
      s.history ∈ Stage.failures ∧ s.stage = .failed ∧
        verdicts es = [⟨.showError e.message errorTitle, ()⟩]) ∧
    (∀ a, o = .shown a →
      s.history = Stage.success ∧ s.stage = .succeeded ∧
        (∃ answer, verdicts es = [⟨.openArtifact a.path a.location, answer⟩]) ∧
        ∃ c content s₁ w₁ es₁, s.capture = some c ∧
          a.location =
            Locate.locate mode content c.signature.toList (c.line.map String.toList) ∧
          (Run h config others { id, mode } w₀ s₁ w₁ es₁ ∧ s₁.phase = .locating c a.rawPath ∧
            Shows h config s₁ c a.rawPath w₁ a content w) ∧
          (KeepsFile h a.path → w.files.read a.path = .ok content)) ∧
    ∀ t : Target, (∀ w w', others w w' → w'.gate.isHeld t = w.gate.isHeld t) →
      w.gate.isHeld t = w₀.gate.isHeld t := by
  have hphase := phase_of_outcome? ho
  have hstory : Story { id, mode } [] := ⟨List.mem_singleton.mpr rfl, rfl⟩
  have st := r.story hstory
  obtain ⟨history, told⟩ := st
  rw [hphase] at history told
  refine ⟨?_, ?_, fun t hothers => ?_⟩
  · rintro e rfl
    have hlast : ∀ course ∈ Stage.failures, course.getLast? = some .failed := by decide
    refine ⟨history, ?_, told⟩
    rw [stage, hlast _ history]
    rfl
  · rintro a rfl
    have hhistory := List.mem_singleton.mp history
    refine ⟨hhistory, by rw [stage, hhistory]; rfl, told, ?_⟩
    obtain ⟨c, content, s₁, w₁, es₁, hcapture, r₁, phase, shows⟩ := r.shown rfl hstory hphase
    refine ⟨c, content, s₁, w₁, es₁, hcapture, ?_, ⟨r₁, phase, shows⟩, shows.read⟩
    rw [← show s₁.mode = mode from r₁.id_mode.2]
    exact shows.location_eq
  · refine (r.gateKept rfl hothers).same ?_
    simp [Claims, hphase, Phase.permit?, Phase.work?]

end

/-- A host that compiles a file by writing a listing, and cannot open it. -/
def listingHost : Host OptionTable where
  reply
    | .compileFile _, s, t =>
      let listing := bytesOf "_main PROC ; int main()\n; 1 : int main()\n"
      ⟨.ran true, s, (t.write "devutils-1.asm" listing).toOption.getD t, []⟩
    | .openArtifact _ _, s, t => ⟨.error (.failed "no window"), s, t, []⟩
    | c, s, t =>
      (OptionTable.host (OptionTable.document ⟨"app", "Debug", "x64"⟩)
        fun _ new => (.ok (), new)).reply c s t

/-- A session shows its listing, and that the listing cannot be opened changes nothing. -/
theorem ending_of_run_unopened :
    let poll : Session × World OptionTable :=
      Session.poll listingHost { artifactDir := "" } { id := "1", mode := .assembly } { host := {} }
    ∃ a, poll.1.outcome? = some (.shown a) ∧ poll.1.stage = .succeeded ∧
      (∃ answer, verdicts (World.callsSince { host := {} } poll.2) =
        [⟨.openArtifact a.path a.location, answer⟩]) ∧
      ∃ content, poll.2.files.read a.path = .ok content ∧
        a.location = Locate.locate .assembly content "int main()".toList
          (some "int main()".toList) := by
  have ho : (Session.poll listingHost { artifactDir := "" } { id := "1", mode := .assembly }
      { host := {} }).1.outcome? = some (.shown ⟨"1", .assembly, "devutils-1.asm",
        "devutils-1.asm", ⟨true, true, 30, 2⟩⟩) := by decide +kernel
  have hcapture : (Session.poll listingHost { artifactDir := "" } { id := "1", mode := .assembly }
      { host := {} }).1.capture = some ⟨"main.cpp", ⟨"app", "Debug", "x64"⟩, "int main()",
        some "int main()"⟩ := by decide +kernel
  have hkeeps : ∀ path, KeepsFile listingHost path := fun path =>
    ⟨fun _ _ _ => rfl, fun _ _ _ _ => rfl⟩
  have hrun : Run listingHost { artifactDir := "" } (fun _ _ => False)
      { id := "1", mode := .assembly } { host := {} } _ _ _ := Run.polled
  obtain ⟨-, hshown, -⟩ := ending_of_run hrun ho
  obtain ⟨-, hstage, hverdicts, c, content, s₁, w₁, es₁, hc, hlocation, -, hread⟩ := hshown _ rfl
  obtain rfl := Option.some.inj (hc.symm.trans hcapture)
  exact ⟨_, ho, hstage, hverdicts, content, hread (hkeeps _), hlocation⟩

end Session

end BuildLens
