/-
The course of a session, and what becomes of the options on it.

A session goes on step by step.  While it waits anything may happen in the world around it, and
it may be interrupted.  `Session.Run` describes what can come of this, with all that the session
itself has asked the host on the way.  At each point of a run the session has

* not written any options yet, and they all are what they were at the start, or
* changed the options of its file, and keeps the ones of the start to put them back, or
* put them back, at a point of the run at which it had not begun to locate, and asked nothing
  about options and nothing of the compiler since.

These are the cases of `Session.Course`; no step leads out of them (`Session.Run.course`), and
at the end only the first one and the last one are left.
-/
import BuildLens.Proofs.Session.Account

namespace BuildLens

namespace Session

variable {σ : Type}

/-! ## What a step asks -/

/-- What a step asks the host, as far as options are concerned: it writes none, or changes
those that it has just read, or tries to do so and puts them back at once, or puts changed
ones back. -/
inductive CallMove (h : Host σ) (s : Session) (w : World σ) (s' : Session) (w' : World σ) :
    Prop
  /-- No options are written, and at the end nothing is asked about them at all. -/
  | keep (work : s'.phase.work? = s.phase.work?) (calls : writes (w.callsSince w') = [])
      (quiet : s.phase.rank ≤ 3 → toolExchanges (w.callsSince w') = [])
      (same : ∀ (V : OptionView h) (file : String) (target : Target),
        V.options w'.host file target = V.options w.host file target)
  /-- Options are read and changed. -/
  | change (c : Capture) (artifact : String) (permit : Permit) (saved : Options)
      (phase : s.phase = .admitted c artifact permit)
      (work : s'.phase.work? = some ⟨c, artifact, ⟨c.file, c.target, saved⟩, permit⟩)
      (calls : ∀ e ∈ writes (w.callsSince w'),
        ∃ o r, e = ⟨.writeOptions c.file c.target o, r⟩)
      (read : ∀ V : OptionView h, V.options w.host c.file c.target = saved)
      (same : ∀ (V : OptionView h) (file : String) (target : Target),
        ¬ (file = c.file ∧ target = c.target) →
          V.options w'.host file target = V.options w.host file target)
  /-- Options are read, and put back since they cannot be changed. -/
  | attempt (c : Capture) (artifact : String) (permit : Permit) (saved : Options)
      (r : Except HostError Unit) (phase : s.phase = .admitted c artifact permit)
      (rank : s'.phase.rank = 3)
      (calls : ∀ e ∈ writes (w.callsSince w'),
        ∃ o r, e = ⟨.writeOptions c.file c.target o, r⟩)
      (back : ∀ es : List Exchange, toolExchanges es = [] →
        PutBack c (Options.configured s.mode artifact) saved r (es ++ w.callsSince w'))
      (last : (w.callsSince w').getLast? = some ⟨.writeOptions c.file c.target saved, r⟩)
      (read : ∀ V : OptionView h, V.options w.host c.file c.target = saved)
      (same : ∀ (V : OptionView h) (file : String) (target : Target),
        ¬ (file = c.file ∧ target = c.target) →
          V.options w'.host file target = V.options w.host file target)
  /-- Changed options are put back. -/
  | restore (work : Work) (r : Except HostError Unit) (before : s.phase.work? = some work)
      (rank : s'.phase.rank = 3)
      (calls : w.callsSince w' =
        [⟨.writeOptions work.guard.file work.guard.target work.guard.saved, r⟩])
      (same : ∀ (V : OptionView h) (file : String) (target : Target),
        ¬ (file = work.guard.file ∧ target = work.guard.target) →
          V.options w'.host file target = V.options w.host file target)

section

variable {h : Host σ} {config : SessionConfig} {s s' : Session} {w w' : World σ}

lemma writes_of_quiet (quiet : World.Quiet h w w') : writes (w.callsSince w') = [] := by
  rw [← writes_toolExchanges, quiet.toolExchanges_callsSince, writes_nil]

/-- A step that changes files and asks nothing about options keeps them. -/
lemma CallMove.of_quiet {files : FileTree} (quiet : World.Quiet h { w with files } w')
    (work : s'.phase.work? = s.phase.work?) : CallMove h s w s' w' := by
  have hquiet := quiet.toolExchanges_callsSince
  have hnone := writes_of_quiet quiet
  exact .keep work hnone (fun _ => hquiet) fun V file target =>
    V.options_quiet (w := { w with files }) quiet

/-- A step that asks for one thing only, and writes no options, keeps them. -/
lemma CallMove.of_ask {c : HostCall} {a : c.Answer} (hlog : w'.log = w.log ++ [⟨c, a⟩])
    (hc : c.isWrite = false) (work : s'.phase.work? = s.phase.work?) (rank : 3 < s.phase.rank)
    (same : ∀ (V : OptionView h) (file : String) (target : Target),
      V.options w'.host file target = V.options w.host file target) : CallMove h s w s' w' := by
  refine .keep work ?_ (fun hrank => absurd hrank (by omega)) same
  rw [World.callsSince_of_log hlog]
  simp [writes, hc]

lemma CallMove.of_same (hlog : w'.log = w.log) (hhost : w'.host = w.host)
    (work : s'.phase.work? = s.phase.work?) : CallMove h s w s' w' := by
  have hnil : w.callsSince w' = [] := World.callsSince_of_log (by rw [hlog, List.append_nil])
  exact .keep work (by rw [hnil, writes_nil]) (fun _ => by rw [hnil, toolExchanges_nil])
    fun V file target => by rw [hhost]

lemma Move.callMove (m : Move h config s w s' w') : CallMove h s w s' w' := by
  cases m with
  | lost phase inquired | found phase inquired =>
    exact .of_quiet inquired.quiet (by rw [phase]; rfl)
  | shown phase shows =>
    obtain ⟨files, quiet⟩ := shows.quiet
    exact .of_quiet quiet (by rw [phase]; rfl)
  | busy phase | barred phase | admitted phase | waits phase | woken phase | missed phase =>
    exact .of_same rfl rfl (by rw [phase]; rfl)
  | unread phase read =>
    exact .of_ask (World.log_of_ask read) rfl (by rw [phase]; rfl) (by simp [phase, Phase.rank])
      fun V _ _ => V.options_ask read (by simp)
  | @unwritten c artifact permit saved e w₁ w₂ phase read write =>
    have hlog := World.log_trans (World.log_of_ask read)
      (World.log_trans (World.log_of_ask write)
        (w₂.log_ask h (.writeOptions c.file c.target saved)))
    refine .attempt c artifact permit saved
      (w₂.ask h (.writeOptions c.file c.target saved)).1 phase rfl ?_
      (fun es hes => .of_unwritten hes read write) ?_
      (fun V => V.options_read (World.answer_of_ask read)) fun V file target hfile => ?_
    · rw [World.callsSince_of_log hlog]
      intro e' he'
      rcases List.mem_cons.mp he' with rfl | he'
      · exact ⟨_, _, rfl⟩
      · rw [List.mem_singleton.mp he']
        exact ⟨_, _, rfl⟩
    · rw [World.callsSince_of_log hlog]
      rfl
    · have hne : ∀ o o', HostCall.writeOptions c.file c.target o ≠ .writeOptions file target o' :=
        fun o o' heq => hfile (by cases heq; exact ⟨rfl, rfl⟩)
      have hw₁ : V.options w₁.host file target = V.options w.host file target :=
        V.options_ask read (by simp)
      have hw₂ : V.options w₂.host file target = V.options w₁.host file target :=
        V.options_ask write (hne _)
      exact (V.options_keep (hne _)).trans (hw₂.trans hw₁)
  | @changed c artifact permit saved w₁ _ phase read write =>
    have hlog := World.log_trans (World.log_of_ask read) (World.log_of_ask write)
    refine .change c artifact permit saved phase rfl ?_
      (fun V => V.options_read (World.answer_of_ask read)) fun V file target hfile => ?_
    · rw [World.callsSince_of_log hlog]
      intro e he
      rw [List.mem_singleton.mp he]
      exact ⟨_, _, rfl⟩
    · have hw₁ : V.options w₁.host file target = V.options w.host file target :=
        V.options_ask read (by simp)
      rw [← hw₁]
      exact V.options_ask write fun o heq => hfile (by cases heq; exact ⟨rfl, rfl⟩)
  | compiled phase ask | refused phase ask | crashed phase ask =>
    exact .of_ask (World.log_of_ask ask) rfl (by rw [phase]; rfl) (by simp [phase, Phase.rank])
      fun V _ _ => V.options_ask ask (by simp)
  | unbuilt phase ask | built phase ask =>
    have hlog := World.log_of_ask ask
    have hhost := World.host_of_ask ask
    exact .of_ask hlog rfl (by rw [phase]; rfl) (by simp [phase, Phase.rank])
      fun V file target => (congrArg (V.options · file target) hhost).trans
        (V.options_keep (by simp))
  | @restored work _ r _ phase write =>
    refine .restore work r (by rw [phase]; rfl) rfl
      (World.callsSince_of_log (World.log_of_ask write)) fun V file target hfile => ?_
    exact V.options_ask write fun o heq => hfile (by cases heq; exact ⟨rfl, rfl⟩)
  | @aborted work o phase =>
    refine .restore work _ (by rw [phase]; rfl) rfl
      (World.callsSince_of_log (World.log_ask h w _)) fun V file target hfile => ?_
    exact V.options_keep fun o heq => hfile (by cases heq; exact ⟨rfl, rfl⟩)
  | @left _ exit phase =>
    refine .of_same rfl rfl ?_
    rw [phase]
    exact exit.work?_phase
  | told phase => exact .of_quiet (.tell w rfl) (by rw [phase]; rfl)
  | rests phase => exact .of_same rfl rfl rfl

end

/-! ## Runs -/

/-- What can come of a session from some point on, and what it has asked the host since.
While it waits, others change the world as they do. -/
inductive Run (h : Host σ) (config : SessionConfig) (others : World σ → World σ → Prop)
    (s₀ : Session) (w₀ : World σ) : Session → World σ → List Exchange → Prop
  | start : Run h config others s₀ w₀ s₀ w₀ []
  | step {s : Session} {w : World σ} {es : List Exchange}
      (r : Run h config others s₀ w₀ s w es) :
      Run h config others s₀ w₀ (s.step h config w).1 (s.step h config w).2
        (es ++ w.callsSince (s.step h config w).2)
  | interrupt {s : Session} {w : World σ} {es : List Exchange} {work : Work} {wait : Wait}
      (r : Run h config others s₀ w₀ s w es) (phase : s.phase = .waiting work wait) :
      Run h config others s₀ w₀ (s.interrupt work w).1 (s.interrupt work w).2 es
  | meanwhile {s : Session} {w w' : World σ} {es : List Exchange} {work : Work} {wait : Wait}
      (r : Run h config others s₀ w₀ s w es) (phase : s.phase = .waiting work wait)
      (change : others w w') : Run h config others s₀ w₀ s w' es

section

variable {h : Host σ} {config : SessionConfig} {others : World σ → World σ → Prop}
  {s₀ s : Session} {w₀ w : World σ} {es : List Exchange}

namespace Run

lemma id_mode (r : Run h config others s₀ w₀ s w es) : s.id = s₀.id ∧ s.mode = s₀.mode := by
  induction r with
  | start => exact ⟨rfl, rfl⟩
  | @step s w _ _ ih =>
    obtain ⟨hid, hmode⟩ := (move h config s w).id_mode
    exact ⟨hid.trans ih.1, hmode.trans ih.2⟩
  | interrupt _ _ ih => exact ih
  | meanwhile _ _ _ ih => exact ih

lemma account (hs₀ : s₀.phase = .fresh) (r : Run h config others s₀ w₀ s w es) :
    s.Account config es := by
  induction r with
  | start => exact account_start hs₀
  | @step s w _ _ ih => exact ih.move (move h config s w)
  | interrupt _ phase ih => exact ih.interrupt phase
  | meanwhile _ _ _ ih => exact ih

/-- A run goes on as a session takes several steps. -/
lemma advance (n : Nat) (r : Run h config others s₀ w₀ s w es) :
    Run h config others s₀ w₀ (s.advance h config n w).1 (s.advance h config n w).2
      (es ++ w.callsSince (s.advance h config n w).2) := by
  induction n generalizing s w es with
  | zero => simpa [Session.advance] using r
  | succ n ih =>
    obtain ⟨fs, hfs⟩ := (move h config s w).log
    obtain ⟨gs, hgs⟩ := advance_log h config (s.step h config w).1 n (s.step h config w).2
    rw [Session.advance]
    dsimp only
    split
    · exact r.step
    · rw [World.callsSince_trans hfs hgs, ← List.append_assoc]
      exact ih r.step

/-- A run goes on as a session is polled. -/
lemma poll (r : Run h config others s₀ w₀ s w es) :
    Run h config others s₀ w₀ (s.poll h config w).1 (s.poll h config w).2
      (es ++ w.callsSince (s.poll h config w).2) :=
  r.advance s.stepsLeft

/-- What comes of a session that is polled for the first time. -/
lemma polled : Run h config others s w (s.poll h config w).1 (s.poll h config w).2
    (w.callsSince (s.poll h config w).2) :=
  Run.start.poll

/-- A run goes on as a session that waits is cancelled. -/
lemma cancel {work : Work} {wait : Wait} (r : Run h config others s₀ w₀ s w es)
    (phase : s.phase = .waiting work wait) :
    Run h config others s₀ w₀ (s.cancel h config w).1 (s.cancel h config w).2
      (es ++ w.callsSince (s.cancel h config w).2) := by
  have hpoll := (r.interrupt phase).poll
  rw [Session.cancel, phase]
  exact hpoll

end Run

end

/-! ## The course of a run -/

/-- Others leave the options of a file alone. -/
def KeptBy {h : Host σ} (others : World σ → World σ → Prop) (V : OptionView h) (file : String)
    (target : Target) : Prop :=
  ∀ w w', others w w' → V.options w'.host file target = V.options w.host file target

/-- The point `s₁`, `w₁` of a run to `s`, `w` at which a session has put options back: the write
that does so is the last thing that the session has asked.  It has not begun to locate then,
and asks nothing about options and nothing of the compiler afterwards. -/
structure PutBackAt (h : Host σ) (config : SessionConfig) (others : World σ → World σ → Prop)
    (s₀ : Session) (w₀ : World σ) (s : Session) (w : World σ) (es : List Exchange) (c : Capture)
    (saved : Options) (r : Except HostError Unit) (s₁ : Session) (w₁ : World σ) : Prop where
  putBack : PutBack c (s₀.change config) saved r es
  reached : ∃ es₁ es₂, es = es₁ ++ es₂ ∧ Run h config others s₀ w₀ s₁ w₁ es₁ ∧
    Run h config others s₁ w₁ s w es₂ ∧ toolExchanges es₂ = [] ∧
    es₁.getLast? = some ⟨.writeOptions c.file c.target saved, r⟩
  notLocated : .locating ∉ s₁.history

/-- Where a session stands on a run, as far as options are concerned. -/
inductive Course (h : Host σ) (config : SessionConfig) (others : World σ → World σ → Prop)
    (s₀ : Session) (w₀ : World σ) (s : Session) (w : World σ) (es : List Exchange) : Prop
  /-- It has not written any options. -/
  | before (unwritten : writes es = []) (work : s.phase.work? = none)
      (notLocated : .locating ∉ s.history)
      (same : ∀ (V : OptionView h) (file : String) (target : Target),
        V.options w.host file target = V.options w₀.host file target)
  /-- It has changed the options of its file. -/
  | during (work : Work) (hwork : s.phase.work? = some work)
      (notLocated : .locating ∉ s.history)
      (saved : ∀ V : OptionView h,
        V.options w₀.host work.capture.file work.capture.target = work.guard.saved)
      (same : ∀ (V : OptionView h) (file : String) (target : Target),
        ¬ (file = work.capture.file ∧ target = work.capture.target) →
          KeptBy others V file target →
            V.options w.host file target = V.options w₀.host file target)
  /-- It has put them back. -/
  | after (c : Capture) (saved : Options) (r : Except HostError Unit) (s₁ : Session)
      (w₁ : World σ) (capture : s.capture = some c) (rank : s.phase.rank ≤ 3)
      (back : PutBackAt h config others s₀ w₀ s w es c saved r s₁ w₁)
      (saved_eq : ∀ V : OptionView h, V.options w₀.host c.file c.target = saved)
      (same₁ : ∀ (V : OptionView h) (file : String) (target : Target),
        ¬ (file = c.file ∧ target = c.target) → KeptBy others V file target →
          V.options w₁.host file target = V.options w₀.host file target)
      (same : ∀ (V : OptionView h) (file : String) (target : Target),
        V.options w.host file target = V.options w₁.host file target)

section

variable {h : Host σ} {config : SessionConfig} {others : World σ → World σ → Prop}
  {s₀ s : Session} {w₀ w : World σ} {es : List Exchange}

lemma work?_of_rank (hrank : s.phase.rank ≤ 3) : s.phase.work? = none := by
  cases phase : s.phase <;> simp_all [Phase.rank, Phase.work?]

lemma ne_locating_of_work? {work : Work} (hwork : s.phase.work? = some work) (c : Capture)
    (artifact : String) : s.phase ≠ .locating c artifact := by
  intro phase
  rw [phase] at hwork
  exact absurd hwork (by simp [Phase.work?])

/-- A step of a session that has put its options back leaves it at that. -/
lemma PutBackAt.step {c : Capture} {saved : Options} {r : Except HostError Unit} {s₁ : Session}
    {w₁ : World σ} (back : PutBackAt h config others s₀ w₀ s w es c saved r s₁ w₁)
    (quiet : toolExchanges (w.callsSince (s.step h config w).2) = []) :
    PutBackAt h config others s₀ w₀ (s.step h config w).1 (s.step h config w).2
      (es ++ w.callsSince (s.step h config w).2) c saved r s₁ w₁ := by
  obtain ⟨⟨r₁, between, hbetween, heq⟩, ⟨es₁, es₂, hsplit, before, since, hes₂, last⟩, hs₁⟩ := back
  refine ⟨⟨r₁, between, hbetween, ?_⟩, ⟨es₁, _, ?_, before, since.step, ?_, last⟩, hs₁⟩
  · rw [toolExchanges_append, quiet, List.append_nil, heq]
  · rw [hsplit, List.append_assoc]
  · rw [toolExchanges_append, hes₂, quiet, List.append_nil]

/-- A step keeps a session on its course. -/
lemma Course.step (hs₀ : s₀.phase = .fresh) (r : Run h config others s₀ w₀ s w es)
    (course : Course h config others s₀ w₀ s w es) :
    Course h config others s₀ w₀ (s.step h config w).1 (s.step h config w).2
      (es ++ w.callsSince (s.step h config w).2) := by
  have m := move h config s w
  have a := r.account hs₀
  obtain ⟨hid, hmode⟩ := r.id_mode
  -- the change of the options depends on the name and the mode only, which stay the same
  have hchange : s.change config = s₀.change config := by rw [change, change, hid, hmode]
  have hlocated : (∀ c artifact, s.phase ≠ .locating c artifact) → .locating ∉ s.history →
      .locating ∉ (s.step h config w).1.history := by
    intro hphase hs hs'
    rcases m.locating hs' with hs' | ⟨c, artifact, phase⟩
    · exact hs hs'
    · exact hphase c artifact phase
  cases m.callMove with
  | keep work calls quiet same =>
    cases course with
    | before unwritten hwork hs hsame =>
      refine .before (by rw [writes_append, unwritten, calls]; rfl) (work.trans hwork) ?_
        fun V file target => (same V file target).trans (hsame V file target)
      refine hlocated (fun c artifact phase => ?_) hs
      -- who locates has written options
      rw [Account, phase] at a
      obtain ⟨-, saved, hback⟩ := a
      obtain ⟨r₁, heq⟩ := hback.writes
      rw [unwritten] at heq
      exact absurd heq (by simp)
    | during work' hwork hs saved hsame =>
      exact .during work' (work.trans hwork) (hlocated (ne_locating_of_work? hwork) hs) saved
        fun V file target hfile hkept =>
          (same V file target).trans (hsame V file target hfile hkept)
    | after c saved r₁ s₁ w₁ capture rank back saved_eq same₁ hsame =>
      refine .after c saved r₁ s₁ w₁ ?_ ?_ (back.step (quiet rank)) saved_eq same₁
        fun V file target => (same V file target).trans (hsame V file target)
      · rw [m.capture fun phase => by rw [phase] at rank; exact absurd rank (by decide)]
        exact capture
      · rcases m.rank with hrank | ⟨hs, -⟩ | ⟨hwait, -⟩
        · omega
        · rw [hs]
          exact rank
        · cases phase : s.phase <;> simp_all [wait?, Phase.rank]
  | change c artifact permit saved phase work _ read same =>
    cases course with
    | before unwritten hwork hs hsame =>
      refine .during _ work (hlocated (by simp [phase]) hs)
        (fun V => (hsame V c.file c.target).symm.trans (read V))
        fun V file target hfile _ => (same V file target hfile).trans (hsame V file target)
    | during work' hwork =>
      rw [phase] at hwork
      exact absurd hwork (by simp [Phase.work?])
    | after _ _ _ _ _ _ rank =>
      rw [phase] at rank
      exact absurd rank (by simp [Phase.rank])
  | attempt c artifact permit saved r' phase rank _ back last read same =>
    -- both writes fall into this step
    cases course with
    | before unwritten hwork hs hsame =>
      rw [Account, phase] at a
      obtain ⟨hcapture, hes, hartifact, -⟩ := a
      have hback := back es hes
      rw [hartifact] at hback
      refine .after c saved r' _ _ ?_ (Nat.le_of_eq rank)
        ⟨hchange ▸ hback, ?_, hlocated (by simp [phase]) hs⟩
        (fun V => (hsame V c.file c.target).symm.trans (read V))
        (fun V file target hfile _ => (same V file target hfile).trans (hsame V file target))
        fun V file target => rfl
      · rw [m.capture (by simp [phase])]
        exact hcapture
      · refine ⟨_, [], (List.append_nil _).symm, r.step, .start, rfl, ?_⟩
        rw [List.getLast?_append, last]
        rfl
    | during work' hwork =>
      rw [phase] at hwork
      exact absurd hwork (by simp [Phase.work?])
    | after _ _ _ _ _ _ rank =>
      rw [phase] at rank
      exact absurd rank (by simp [Phase.rank])
  | restore work r' before rank calls same =>
    -- this is the point of the run at which the options are put back
    cases course with
    | before unwritten hwork =>
      rw [hwork] at before
      exact absurd before (by simp)
    | during work' hwork hs saved hsame =>
      obtain rfl : work' = work := Option.some.inj (hwork.symm.trans before)
      have hopen := a.changed before
      have hes : toolExchanges (es ++ w.callsSince (s.step h config w).2) = toolExchanges es ++
          [⟨.writeOptions work'.guard.file work'.guard.target work'.guard.saved, r'⟩] := by
        rw [toolExchanges_append, calls]
        rfl
      have hback := hopen.putBack hes
      rw [hopen.file, hopen.target] at same calls
      refine .after work'.capture work'.guard.saved r' _ _ ?_ (Nat.le_of_eq rank)
        ⟨hchange ▸ hback, ?_, hlocated (ne_locating_of_work? hwork) hs⟩ saved
        (fun V file target hfile hkept =>
          (same V file target hfile).trans (hsame V file target hfile hkept))
        fun V file target => rfl
      · rw [m.capture fun phase => by
          rw [phase] at hwork
          exact absurd hwork (by simp [Phase.work?])]
        exact hopen.capture
      · refine ⟨_, [], (List.append_nil _).symm, r.step, .start, rfl, ?_⟩
        rw [calls, List.getLast?_append]
        rfl
    | after _ _ _ _ _ _ rank =>
      rw [work?_of_rank rank] at before
      exact absurd before (by simp)

/-- A run never leaves its course. -/
lemma Run.course (hs₀ : s₀.phase = .fresh) (hlocated : .locating ∉ s₀.history)
    (r : Run h config others s₀ w₀ s w es) : Course h config others s₀ w₀ s w es := by
  induction r with
  | start => exact .before rfl (by rw [hs₀]; rfl) hlocated fun _ _ _ => rfl
  | step r ih => exact ih.step hs₀ r
  | interrupt r phase ih =>
    cases ih with
    | before _ hwork => rw [phase] at hwork; exact absurd hwork (by simp [Phase.work?])
    | during work hwork hs saved same =>
      rw [phase] at hwork
      exact .during work hwork hs saved same
    | after _ _ _ _ _ _ rank => rw [phase] at rank; exact absurd rank (by simp [Phase.rank])
  | meanwhile r phase change ih =>
    cases ih with
    | before _ hwork => rw [phase] at hwork; exact absurd hwork (by simp [Phase.work?])
    | during work hwork hs saved same =>
      exact .during work hwork hs saved fun V file target hfile hkept =>
        (hkept _ _ change).trans (same V file target hfile hkept)
    | after _ _ _ _ _ _ rank => rw [phase] at rank; exact absurd rank (by simp [Phase.rank])

/-- A session that has ended has either not written any options and failed, since it could
not read those of its file, or has written twice: the options that it had read, changed, and
then as they were.  In between it has asked for nothing but that its file or its target be
compiled, it has begun to locate only after the second write, and it has succeeded only if that
one has worked.  If the second write took effect, the options are what they were before, no
matter what came of the first one. -/
theorem options_put_back {id : String} {mode : Mode} {o : Outcome}
    (r : Run h config others { id, mode } w₀ s w es) (ho : s.outcome? = some o) :
    (Untouched es ∧ .locating ∉ s.history ∧ (∃ e, o = .failed e) ∧
      ∀ (V : OptionView h) (file : String) (target : Target),
        V.options w.host file target = V.options w₀.host file target) ∨
    ∃ c saved answer s₁ w₁, s.capture = some c ∧
      PutBackAt h config others { id, mode } w₀ s w es c saved answer s₁ w₁ ∧
      (∃ first, writes es =
        [⟨.writeOptions c.file c.target
            (saved.configured mode (artifactPath config.artifactDir id mode)), first⟩,
          ⟨.writeOptions c.file c.target saved, answer⟩]) ∧
      (∀ a, o = .shown a → answer = .ok ()) ∧
      ∀ V : OptionView h,
        (V.options w₁.host c.file c.target = saved →
          V.options w.host c.file c.target = V.options w₀.host c.file c.target) ∧
        ∀ (file : String) (target : Target), ¬ (file = c.file ∧ target = c.target) →
          KeptBy others V file target →
            V.options w.host file target = V.options w₀.host file target := by
  have hphase : s.phase = .ended o := by
    rw [outcome?] at ho
    split at ho
    next phase => rw [phase, Option.some.inj ho]
    next => exact absurd ho (by simp)
  have a := r.account rfl
  rw [Account, hphase] at a
  cases r.course rfl (by simp) with
  | before unwritten _ hs same =>
    left
    have hback : ∀ {c change saved answer}, ¬ PutBack c change saved answer es := by
      intro c change saved answer hback
      obtain ⟨first, heq⟩ := hback.writes
      rw [unwritten] at heq
      exact absurd heq (by simp)
    have hfailed : ∃ e, o = .failed e := by
      cases o with
      | failed e => exact ⟨e, rfl⟩
      | shown => obtain ⟨c, saved, -, hes⟩ := a; exact absurd hes hback
      | crashed => obtain ⟨c, saved, answer, -, hes⟩ := a; exact absurd hes hback
      | cancelled => obtain ⟨c, saved, answer, -, hes⟩ := a; exact absurd hes hback
    rcases a.closed with hes | ⟨c, saved, answer, -, hes⟩
    · exact ⟨hes, hs, hfailed, same⟩
    · exact absurd hes hback
  | during work hwork =>
    rw [hphase] at hwork
    exact absurd hwork (by simp [Phase.work?])
  | after c saved answer s₁ w₁ capture rank back saved_eq same₁ same =>
    right
    refine ⟨c, saved, answer, s₁, w₁, capture, back, back.putBack.writes, ?_, fun V => ⟨?_, ?_⟩⟩
    · rintro shown rfl
      obtain ⟨c', saved', -, hes⟩ := a
      exact back.putBack.answer_unique hes
    · intro hsaved
      rw [same V, hsaved, saved_eq V]
    · intro file target hfile hkept
      rw [same V, same₁ V file target hfile hkept]

end

/-- A host that takes over only the kind of the listing when options are first written, and then
fails. -/
def halfWritingHost : Host OptionTable :=
  OptionTable.host (OptionTable.document ⟨"app", "Debug", "x64"⟩) fun old new =>
    (.error (.failed "disk full"), { old with assemblerOutput := new.assemblerOutput })

/-- Options that were written half-way are put back. -/
theorem options_put_back_half_written :
    let poll : Session × World OptionTable :=
      Session.poll halfWritingHost { artifactDir := "" } { id := "1", mode := .assembly }
        { host := {} }
    (∃ e, poll.1.outcome? = some (.failed e)) ∧
      poll.2.host.options "main.cpp" ⟨"app", "Debug", "x64"⟩ = {} ∧
      ∃ es c saved answer s₁ w₁, poll.1.capture = some c ∧
        PutBackAt halfWritingHost { artifactDir := "" } (fun _ _ => False)
          { id := "1", mode := .assembly } { host := {} } poll.1 poll.2 es c saved answer s₁
          w₁ := by
  have ho : (Session.poll halfWritingHost { artifactDir := "" } { id := "1", mode := .assembly }
      { host := {} }).1.outcome? =
        some (.failed ⟨.host, "host operation failed: disk full"⟩) := by decide +kernel
  have hwrites : (writes (World.callsSince { host := {} } (Session.poll halfWritingHost
      { artifactDir := "" } { id := "1", mode := .assembly } { host := {} }).2)).length = 2 := by
    decide +kernel
  refine ⟨⟨_, ho⟩, by decide +kernel, ?_⟩
  rcases options_put_back Run.polled ho with
    ⟨untouched, -⟩ | ⟨c, saved, answer, s₁, w₁, capture, back, -⟩
  · rw [untouched.writes] at hwrites
    exact absurd hwrites (by decide)
  · exact ⟨_, c, saved, answer, s₁, w₁, capture, back⟩

end Session

end BuildLens
