/-
The account of a session: what it has asked of the host about options and of the compiler.

A session that compiles has read the options of its file and written the changed ones; since
then it has asked for nothing but the compilation of its file and the build of its target.
When it has put the old options back, its account is closed: nothing follows that has to do
with options or with the compiler.

* `Session.Changed` describes the open account, `PutBack` and `Untouched` the closed ones;
* `Session.Account` tells for each phase what the account looks like, and no move breaks it
  (`Session.Account.move`).
-/
import BuildLens.Proofs.Session.Step

namespace BuildLens

/-- Whether a call asks for the compilation of what a session is about. -/
def Capture.Compiles (c : Capture) (call : HostCall) : Prop :=
  call = .compileFile c.file ∨ call = .buildProject c.target

/-- Some exchanges in which no options were written, and none could be read. -/
def Untouched (es : List Exchange) : Prop :=
  ∀ e ∈ toolExchanges es, ∃ file target error,
    e = ⟨.readOptions file target, .error error⟩

/-- Some exchanges in which the options of what a session is about were read, changed and put
back: the file or its target is only compiled in between, `saved` is what was read, and `r` is
what the host answered when it was put back. -/
def PutBack (c : Capture) (change : Options → Options) (saved : Options)
    (r : Except HostError Unit) (es : List Exchange) : Prop :=
  ∃ r₁ between, (∀ e ∈ between, c.Compiles e.call) ∧
    toolExchanges es = ⟨.readOptions c.file c.target, .ok saved⟩ ::
      ⟨.writeOptions c.file c.target (change saved), r₁⟩ ::
        (between ++ [⟨.writeOptions c.file c.target saved, r⟩])

lemma writes_of_compiles {c : Capture} {es : List Exchange}
    (hes : ∀ e ∈ es, c.Compiles e.call) : writes es = [] := by
  refine List.filter_eq_nil_iff.mpr fun e he => ?_
  rcases hes e he with hcall | hcall <;> simp [hcall, HostCall.isWrite]

/-- A session that could not read the options has written none. -/
lemma Untouched.writes {es : List Exchange} (a : Untouched es) : writes es = [] := by
  rw [← writes_toolExchanges]
  refine List.filter_eq_nil_iff.mpr fun e he => ?_
  obtain ⟨file, target, error, rfl⟩ := a e he
  simp [HostCall.isWrite]

/-- A session that has put the options back has written them twice. -/
lemma PutBack.writes {c : Capture} {change : Options → Options} {saved : Options}
    {r : Except HostError Unit} {es : List Exchange} (a : PutBack c change saved r es) :
    ∃ r₁, writes es = [⟨.writeOptions c.file c.target (change saved), r₁⟩,
      ⟨.writeOptions c.file c.target saved, r⟩] := by
  obtain ⟨r₁, between, hbetween, heq⟩ := a
  have hlast : BuildLens.writes (between ++ [⟨.writeOptions c.file c.target saved, r⟩]) =
      [⟨.writeOptions c.file c.target saved, r⟩] := by
    rw [writes_append, writes_of_compiles hbetween]
    rfl
  refine ⟨r₁, ?_⟩
  rw [← writes_toolExchanges, heq]
  exact congrArg (List.cons _) hlast

/-- What was written last is known from the exchanges. -/
lemma PutBack.answer_unique {c c' : Capture} {change change' : Options → Options}
    {saved saved' : Options} {r r' : Except HostError Unit} {es : List Exchange}
    (a : PutBack c change saved r es) (a' : PutBack c' change' saved' r' es) : r = r' := by
  obtain ⟨r₁, heq⟩ := a.writes
  obtain ⟨r₁', heq'⟩ := a'.writes
  rw [heq] at heq'
  have hlast := Option.some.inj (congrArg List.getLast? heq')
  exact eq_of_heq (Exchange.mk.inj hlast).2

/-- A failed first write is followed at once by the one that puts the options back. -/
lemma PutBack.of_unwritten {σ : Type} {h : Host σ} {c : Capture} {change : Options → Options}
    {saved : Options} {e : HostError} {es : List Exchange} {w w₁ w₂ : World σ}
    (hes : toolExchanges es = [])
    (read : w.ask h (.readOptions c.file c.target) = (.ok saved, w₁))
    (write : w₁.ask h (.writeOptions c.file c.target (change saved)) = (.error e, w₂)) :
    PutBack c change saved (w₂.ask h (.writeOptions c.file c.target saved)).1
      (es ++ w.callsSince (w₂.ask h (.writeOptions c.file c.target saved)).2) := by
  have hlog := World.log_trans (World.log_of_ask read)
    (World.log_trans (World.log_of_ask write)
      (w₂.log_ask h (.writeOptions c.file c.target saved)))
  refine ⟨.error e, [], by simp, ?_⟩
  rw [toolExchanges_append, World.callsSince_of_log hlog, hes]
  rfl

/-- A session in this phase has not been rejected because its target was held, and will not
be. -/
def Phase.PastGate : Phase → Prop
  | .fresh => False
  | .captured _ => False
  | .failing e => e.kind ≠ .sessionBusy
  | .ended (.failed e) => e.kind ≠ .sessionBusy
  | _ => True

namespace Session

variable {σ : Type} {h : Host σ} {config : SessionConfig} {s s' : Session}
  {es : List Exchange} {w w' : World σ}

/-- How a session changes options. -/
def change (config : SessionConfig) (s : Session) : Options → Options :=
  Options.configured s.mode (artifactPath config.artifactDir s.id s.mode)

/-- A session has changed the options of its file and not put them back. -/
structure Changed (config : SessionConfig) (s : Session) (es : List Exchange) (work : Work) :
    Prop where
  capture : s.capture = some work.capture
  key : work.permit.key = work.capture.target.gateKey
  file : work.guard.file = work.capture.file
  target : work.guard.target = work.capture.target
  exchanges : ∃ between, (∀ e ∈ between, work.capture.Compiles e.call) ∧
    toolExchanges es =
      ⟨.readOptions work.capture.file work.capture.target, .ok work.guard.saved⟩ ::
      ⟨.writeOptions work.capture.file work.capture.target
        (s.change config work.guard.saved), .ok ()⟩ :: between

/-- A session has not changed the options of its file, or has put them back. -/
def Closed (config : SessionConfig) (s : Session) (es : List Exchange) : Prop :=
  Untouched es ∨ ∃ c saved r, s.capture = some c ∧ PutBack c (s.change config) saved r es

/-- The closed account of a session that goes on in a given way. -/
def Settled (config : SessionConfig) (s : Session) (es : List Exchange) : Exit → Prop
  | .locate c _ => s.capture = some c ∧ ∃ saved, PutBack c (s.change config) saved (.ok ()) es
  | .fail e => s.Closed config es ∧ (e.kind = .sessionBusy → toolExchanges es = [])
  | .stop (.shown _) =>
    ∃ c saved, s.capture = some c ∧ PutBack c (s.change config) saved (.ok ()) es
  | .stop (.failed e) => s.Closed config es ∧ (e.kind = .sessionBusy → toolExchanges es = [])
  | .stop _ => ∃ c saved r, s.capture = some c ∧ PutBack c (s.change config) saved r es

/-- The account of a session in each of its phases. -/
def Account (config : SessionConfig) (s : Session) (es : List Exchange) : Prop :=
  match s.phase with
  | .fresh => toolExchanges es = []
  | .captured c => s.capture = some c ∧ toolExchanges es = []
  | .admitted c artifact permit => s.capture = some c ∧ toolExchanges es = [] ∧
      artifact = artifactPath config.artifactDir s.id s.mode ∧
      permit.key = c.target.gateKey
  | .configured work => s.Changed config es work
  | .refused work => s.Changed config es work
  | .waiting work _ => s.Changed config es work
  | .compiled work failure => s.Changed config es work ∧
      ∀ e ∈ failure, e.kind ≠ .sessionBusy
  | .stopped work o => s.Changed config es work ∧ (o = .crashed ∨ o = .cancelled)
  | .leaving permit exit => (∃ c, s.capture = some c ∧ permit.key = c.target.gateKey) ∧
      exit.phase.PastGate ∧ s.Settled config es exit
  | .locating c artifact => s.Settled config es (.locate c artifact)
  | .failing e => s.Settled config es (.fail e)
  | .ended o => s.Settled config es (.stop o)

/-! ## Exchanges that are added to an account -/

lemma toolExchanges_append_callsSince {fs : List Exchange} (hlog : w'.log = w.log ++ fs) :
    toolExchanges (es ++ w.callsSince w') = toolExchanges es ++ toolExchanges fs := by
  rw [toolExchanges_append, World.callsSince_of_log hlog]

lemma toolExchanges_of_quiet (quiet : World.Quiet h w w') :
    toolExchanges (es ++ w.callsSince w') = toolExchanges es := by
  rw [toolExchanges_append, quiet.toolExchanges_callsSince, List.append_nil]

lemma toolExchanges_of_log (hlog : w'.log = w.log) :
    toolExchanges (es ++ w.callsSince w') = toolExchanges es := by
  have hnil : w'.log = w.log ++ [] := by rw [hlog, List.append_nil]
  rw [toolExchanges_append_callsSince hnil, toolExchanges_nil, List.append_nil]

/-- An account stays open while the file is compiled. -/
lemma Changed.compiles {work : Work} {fs : List Exchange} {e : Exchange}
    (a : s.Changed config es work) (hes : toolExchanges fs = toolExchanges es ++ [e])
    (he : work.capture.Compiles e.call) : s.Changed config fs work := by
  obtain ⟨between, hbetween, heq⟩ := a.exchanges
  refine ⟨a.capture, a.key, a.file, a.target, between ++ [e], ?_, ?_⟩
  · intro e' he'
    rcases List.mem_append.mp he' with he' | he'
    · exact hbetween e' he'
    · rw [List.mem_singleton.mp he']
      exact he
  · rw [hes, heq]
    rfl

lemma Changed.congr {work : Work} {fs : List Exchange} (a : s.Changed config es work)
    (hes : toolExchanges fs = toolExchanges es) : s.Changed config fs work :=
  ⟨a.capture, a.key, a.file, a.target, by rw [hes]; exact a.exchanges⟩

/-- Only the names of a session, its mode and what it is about matter for its account. -/
lemma Changed.goTo {work : Work} (a : s.Changed config es work) (phase : Phase) :
    (s.goTo phase).Changed config es work :=
  ⟨a.capture, a.key, a.file, a.target, a.exchanges⟩

lemma Changed.enter {work : Work} (a : s.Changed config es work) (stage : Stage) :
    (s.enter stage).Changed config es work :=
  ⟨a.capture, a.key, a.file, a.target, a.exchanges⟩

/-- Writing the old options closes an account. -/
lemma Changed.putBack {work : Work} {fs : List Exchange} {r : Except HostError Unit}
    (a : s.Changed config es work) (hes : toolExchanges fs = toolExchanges es ++
      [⟨.writeOptions work.guard.file work.guard.target work.guard.saved, r⟩]) :
    PutBack work.capture (s.change config) work.guard.saved r fs := by
  obtain ⟨between, hbetween, heq⟩ := a.exchanges
  refine ⟨.ok (), between, hbetween, ?_⟩
  rw [hes, heq, a.file, a.target]
  rfl

/-! ## Moves -/

lemma toolExchanges_of_ask {c : HostCall} {a : c.Answer} (hask : w.ask h c = (a, w'))
    (hc : c.isTool = true) :
    toolExchanges (es ++ w.callsSince w') = toolExchanges es ++ [⟨c, a⟩] := by
  rw [toolExchanges_append_callsSince (World.log_of_ask hask)]
  simp [toolExchanges, hc]

lemma Closed.of_nil (hes : toolExchanges es = []) : s.Closed config es := by
  refine .inl ?_
  rw [Untouched, hes]
  simp

lemma Settled.congr {exit : Exit} {fs : List Exchange} (a : s.Settled config es exit)
    (hes : toolExchanges fs = toolExchanges es) : s.Settled config fs exit := by
  cases exit with
  | locate c artifact => simpa only [Settled, PutBack, hes] using a
  | fail e => simpa only [Settled, Closed, Untouched, PutBack, hes] using a
  | stop o => cases o <;> simpa only [Settled, Closed, Untouched, PutBack, hes] using a

lemma kind_failureOf {file : String} {result : Except SessionError Bool}
    (hresult : ∀ e, result = .error e → e.kind = .compileFailed) :
    ∀ e ∈ Wait.failureOf file result, e.kind ≠ .sessionBusy := by
  intro e he
  rcases result with e' | _ | _
  · rw [← Option.some.inj he, hresult e' rfl]
    simp
  · rw [← Option.some.inj he]
    simp [SessionError.compileFailed]
  · exact absurd he (by simp [Wait.failureOf])

/-- Every move keeps the account. -/
theorem Account.move (a : s.Account config es) (m : Move h config s w s' w') :
    s'.Account config (es ++ w.callsSince w') := by
  have hhost : ∀ e : HostError, (SessionError.ofHost e).kind ≠ .sessionBusy :=
    fun e => SessionError.kind_ofHost_ne e (by decide)
  cases m with
  | lost phase inquired =>
    rw [Account, phase] at a
    have hes := (toolExchanges_of_quiet inquired.quiet).trans a
    exact ⟨.of_nil hes, fun _ => hes⟩
  | found phase inquired =>
    rw [Account, phase] at a
    exact ⟨rfl, (toolExchanges_of_quiet inquired.quiet).trans a⟩
  | busy phase held =>
    rw [Account, phase] at a
    have hes : toolExchanges (es ++ w.callsSince w) = [] := (toolExchanges_of_log rfl).trans a.2
    exact ⟨.of_nil hes, fun _ => hes⟩
  | @barred c e files phase free =>
    rw [Account, phase] at a
    have hes : ∀ w' : World σ, w'.log = w.log → toolExchanges (es ++ w.callsSince w') = [] :=
      fun _ hlog => (toolExchanges_of_log hlog).trans a.2
    have hkind : (SessionError.ofIo e).kind ≠ .sessionBusy :=
      (SessionError.kind_ofIo e).trans_ne (by decide)
    exact ⟨⟨c, a.1, rfl⟩, hkind, .of_nil (hes _ rfl), fun _ => hes _ rfl⟩
  | admitted phase free =>
    rw [Account, phase] at a
    exact ⟨a.1, (toolExchanges_of_log rfl).trans a.2, rfl, rfl⟩
  | @unread c artifact permit e w' phase read =>
    rw [Account, phase] at a
    obtain ⟨hcapture, hes, -, hkey⟩ := a
    refine ⟨⟨c, hcapture, hkey⟩, hhost e, .inl ?_,
      fun hbusy => absurd hbusy (hhost e)⟩
    rw [Untouched, toolExchanges_of_ask read rfl, hes]
    intro e' he'
    rw [List.mem_singleton.mp he']
    exact ⟨_, _, _, rfl⟩
  | @unwritten c artifact permit saved e w₁ w₂ phase read write =>
    rw [Account, phase] at a
    obtain ⟨hcapture, hes, hartifact, hkey⟩ := a
    -- nothing was compiled, so the second write follows the first one
    rw [hartifact] at write
    have hback := PutBack.of_unwritten hes read write
    exact ⟨⟨c, hcapture, hkey⟩, hhost e, .inr ⟨c, saved, _, hcapture, hback⟩,
      fun hbusy => absurd hbusy (hhost e)⟩
  | @changed c artifact permit saved w₁ _ phase read write =>
    rw [Account, phase] at a
    obtain ⟨hcapture, hes, hartifact, hkey⟩ := a
    refine ⟨hcapture, hkey, rfl, rfl, [], by simp, ?_⟩
    have hlog := World.log_trans (World.log_of_ask read) (World.log_of_ask write)
    rw [toolExchanges_append_callsSince hlog, hes, hartifact]
    rfl
  | @compiled work success _ phase ask =>
    rw [Account, phase] at a
    have hopen := a.compiles (toolExchanges_of_ask ask rfl) (.inl rfl)
    exact ⟨(hopen.enter _).goTo _, kind_failureOf (by simp)⟩
  | refused phase ask =>
    rw [Account, phase] at a
    have hopen := a.compiles (toolExchanges_of_ask ask rfl) (.inl rfl)
    exact (hopen.enter _).goTo _
  | crashed phase ask =>
    rw [Account, phase] at a
    have hopen := a.compiles (toolExchanges_of_ask ask rfl) (.inl rfl)
    exact ⟨(hopen.enter _).goTo _, .inl rfl⟩
  | @unbuilt work e hub hub' w' phase ask =>
    rw [Account, phase] at a
    have hopen := a.compiles (toolExchanges_of_ask ask rfl) (.inr rfl)
    refine ⟨hopen.goTo _, fun e' he' => ?_⟩
    rw [← Option.some.inj he']
    exact hhost e
  | built phase ask =>
    rw [Account, phase] at a
    have hopen := a.compiles (toolExchanges_of_ask ask rfl) (.inr rfl)
    exact hopen.goTo _
  | waits phase =>
    rw [Account, phase] at a
    exact (a.congr (toolExchanges_of_log rfl)).goTo _
  | woken phase kind =>
    rw [Account, phase] at a
    exact ⟨(a.congr (toolExchanges_of_log rfl)).goTo _, kind_failureOf kind⟩
  | @restored work failure r w' phase write =>
    rw [Account, phase] at a
    obtain ⟨a, hkind⟩ := a
    have hback := a.putBack (toolExchanges_of_ask write rfl)
    have hclosed : s.Closed config _ := .inr ⟨work.capture, work.guard.saved, r, a.capture, hback⟩
    refine ⟨⟨work.capture, a.capture, a.key⟩, ?_⟩
    -- how the session goes on depends on the compiler first, and then on this write
    cases failure with
    | some e =>
      exact ⟨hkind e rfl, hclosed, fun hbusy => absurd hbusy (hkind e rfl)⟩
    | none =>
      cases r with
      | error e =>
        exact ⟨hhost e, hclosed, fun hbusy => absurd hbusy (hhost e)⟩
      | ok r => exact ⟨trivial, a.capture, work.guard.saved, hback⟩
  | @aborted work o phase =>
    rw [Account, phase] at a
    obtain ⟨a, ho⟩ := a
    have hback := a.putBack (toolExchanges_append_callsSince (w.log_ask h (.writeOptions
      work.guard.file work.guard.target work.guard.saved)))
    refine ⟨⟨work.capture, a.capture, a.key⟩, ?_⟩
    rcases ho with rfl | rfl
    · exact ⟨trivial, work.capture, work.guard.saved, _, a.capture, hback⟩
    · exact ⟨trivial, work.capture, work.guard.saved, _, a.capture, hback⟩
  | @left permit exit phase =>
    rw [Account, phase] at a
    have hsettled := a.2.2.congr (toolExchanges_of_log (rfl : (w.release permit).log = w.log))
    cases exit with
    | locate c artifact => exact hsettled
    | fail e => exact hsettled
    | stop o => exact hsettled
  | shown phase shows =>
    rw [Account, phase] at a
    obtain ⟨files, quiet⟩ := shows.quiet
    obtain ⟨hcapture, saved, hback⟩ := a.congr (toolExchanges_of_quiet quiet)
    exact ⟨_, saved, hcapture, hback⟩
  | @missed _ _ _ files phase kind =>
    rw [Account, phase] at a
    have hes : toolExchanges (es ++ w.callsSince { w with files }) = toolExchanges es :=
      toolExchanges_of_log rfl
    obtain ⟨hcapture, saved, hback⟩ := a.congr hes
    exact ⟨.inr ⟨_, saved, _, hcapture, hback⟩, fun hbusy => absurd hbusy kind⟩
  | told phase =>
    rw [Account, phase] at a
    exact a.congr (toolExchanges_of_quiet (.tell w rfl))
  | rests phase =>
    have hsettled := a
    rw [Account, phase] at hsettled
    rw [Account, phase]
    exact hsettled.congr (toolExchanges_of_log rfl)

/-- The account of a session that has changed options is open. -/
lemma Account.changed {work : Work} (a : s.Account config es)
    (hwork : s.phase.work? = some work) : s.Changed config es work := by
  rw [Account] at a
  cases phase : s.phase with
  | configured | refused | waiting =>
    rw [phase] at a hwork
    cases hwork
    exact a
  | compiled | stopped =>
    rw [phase] at a hwork
    cases hwork
    exact a.1
  | _ => rw [phase] at hwork; exact absurd hwork (by simp [Phase.work?])

/-- A session that is interrupted keeps its account. -/
lemma Account.interrupt {work : Work} {wait : Wait} (a : s.Account config es)
    (phase : s.phase = .waiting work wait) : (s.interrupt work w).1.Account config es := by
  rw [Account, phase] at a
  exact ⟨a.goTo _, .inr rfl⟩

lemma account_start (hphase : s.phase = .fresh) : s.Account config [] := by
  rw [Account, hphase]
  rfl

/-! ## Rejections -/

/-- A session that is past the gate stays there. -/
lemma Move.pastGate (m : Move h config s w s' w') (a : s.Account config es)
    (hp : s.phase.PastGate) : s'.phase.PastGate := by
  cases m with
  | lost phase | found phase | busy phase | barred phase | admitted phase =>
    rw [phase] at hp
    exact absurd hp (by simp [Phase.PastGate])
  | missed phase kind => exact kind
  | told phase =>
    rw [phase] at hp
    exact hp
  | left phase =>
    rw [Account, phase] at a
    exact a.2.1
  | rests phase => exact hp
  | unread | unwritten | changed | compiled | refused | crashed | unbuilt | built | waits
  | woken | restored | aborted | shown => exact trivial

/-- A session whose step moves the gate is past it. -/
lemma Move.pastGate_of_gate (m : Move h config s w s' w') (a : s.Account config es)
    (hgate : w'.gate ≠ w.gate) : s'.phase.PastGate := by
  cases m.gateMove with
  | keep permit gate => exact absurd gate hgate
  | claim c phase free permit =>
    -- who has a permit is past the gate
    cases phase' : s'.phase with
    | fresh | captured | failing | ended =>
      rw [phase'] at permit
      exact absurd permit (by simp [Phase.permit?, Phase.work?])
    | _ => exact trivial
  | free permit exit phase next =>
    rw [Account, phase] at a
    rw [next]
    exact a.2.1

/-! ## How often a session has written options -/

/-- A session that has changed options has written them once. -/
lemma Changed.writes {work : Work} (a : s.Changed config es work) :
    writes es = [⟨.writeOptions work.capture.file work.capture.target
      (s.change config work.guard.saved), .ok ()⟩] := by
  obtain ⟨between, hbetween, heq⟩ := a.exchanges
  rw [← writes_toolExchanges, heq]
  exact congrArg (List.cons _) (writes_of_compiles hbetween)

lemma Closed.length_writes (a : s.Closed config es) : (writes es).length ≠ 1 := by
  rcases a with hes | ⟨c, saved, r, -, hes⟩
  · simp [hes.writes]
  · obtain ⟨r₁, heq⟩ := hes.writes
    simp [heq]

lemma Settled.closed {exit : Exit} (a : s.Settled config es exit) : s.Closed config es := by
  cases exit with
  | locate c artifact =>
    obtain ⟨hcapture, saved, hes⟩ := a
    exact .inr ⟨c, saved, _, hcapture, hes⟩
  | fail e => exact a.1
  | stop o =>
    cases o with
    | shown =>
      obtain ⟨c, saved, hcapture, hes⟩ := a
      exact .inr ⟨c, saved, _, hcapture, hes⟩
    | failed => exact a.1
    | crashed => exact .inr a
    | cancelled => exact .inr a

/-- A session has written options exactly once if and only if it has changed them and not put
them back. -/
theorem Account.length_writes (a : s.Account config es) :
    (writes es).length = 1 ↔ s.phase.work?.isSome = true := by
  have hopen : ∀ {work}, s.Changed config es work → (writes es).length = 1 := by
    intro work hwork
    rw [hwork.writes]
    rfl
  have hnil : toolExchanges es = [] → (writes es).length ≠ 1 := by
    intro hes
    rw [← writes_toolExchanges, hes]
    simp
  rw [Account] at a
  cases phase : s.phase with
  | fresh => rw [phase] at a; simpa [Phase.work?] using hnil a
  | captured => rw [phase] at a; simpa [Phase.work?] using hnil a.2
  | admitted => rw [phase] at a; simpa [Phase.work?] using hnil a.2.1
  | configured => rw [phase] at a; simpa [Phase.work?] using hopen a
  | refused => rw [phase] at a; simpa [Phase.work?] using hopen a
  | waiting => rw [phase] at a; simpa [Phase.work?] using hopen a
  | compiled => rw [phase] at a; simpa [Phase.work?] using hopen a.1
  | stopped => rw [phase] at a; simpa [Phase.work?] using hopen a.1
  | leaving => rw [phase] at a; simpa [Phase.work?] using a.2.2.closed.length_writes
  | locating => rw [phase] at a; simpa [Phase.work?] using Settled.closed a |>.length_writes
  | failing => rw [phase] at a; simpa [Phase.work?] using Settled.closed a |>.length_writes
  | ended => rw [phase] at a; simpa [Phase.work?] using Settled.closed a |>.length_writes

end Session

end BuildLens
