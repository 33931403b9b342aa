/-
What a session is about.

A session asks in its first step which document is active and what the lines near the cursor say,
and never again.  So what it is about does not depend on anything that happens later, and what it
could not find out by then it cannot find out at all.

* `Capture.Taken.subject`: which lines are looked up, and which document the line, the function,
  the file and the target are taken from;
* `Session.Run.captured`: all of a run a session is about what came of its first step;
* `Session.subject_of_run`: both together, for the whole of a run.
-/
import BuildLens.Proofs.Session.Course

namespace BuildLens

open BuildLens.Text

/-! ## Searches -/

/-- Whether a call finds out what a session is about. -/
def HostCall.isSearch : HostCall → Bool
  | .activeDocument => true
  | .lineText _ _ => true
  | .switchToSibling _ _ => true
  | _ => false

/-- Once a session has begun, it asks for other things. -/
lemma Phase.isSearch_of_mayAsk {phase : Phase} {c : HostCall} (hphase : phase ≠ .fresh)
    (hc : phase.mayAsk c = true) : c.isSearch = false := by
  cases c with
  | activeDocument | lineText | switchToSibling =>
    cases phase with
    | fresh => exact absurd rfl hphase
    | _ => exact absurd hc (by simp [mayAsk])
  | _ => rfl

/-- The exchanges among some that find out what a session is about. -/
def searches (es : List Exchange) : List Exchange :=
  es.filter fun e => e.call.isSearch

@[simp] lemma searches_append (es fs : List Exchange) :
    searches (es ++ fs) = searches es ++ searches fs :=
  List.filter_append ..

lemma searches_eq_self {es : List Exchange} (h : ∀ e ∈ es, e.call.isSearch = true) :
    searches es = es :=
  List.filter_eq_self.mpr h

lemma searches_eq_nil {es : List Exchange} (h : ∀ e ∈ es, e.call.isSearch = false) :
    searches es = [] := by
  simpa [searches] using h

/-- How the host failed in an exchange that finds out what a session is about. -/
def Exchange.failure? : Exchange → Option HostError
  | ⟨.activeDocument, .error e⟩ => some e
  | ⟨.lineText _ _, .error e⟩ => some e
  | ⟨.switchToSibling _ _, .error e⟩ => some e
  | _ => none

/-- Only the last one of some exchanges can be a failure of the host, and if it is, that is what
comes of them. -/
def StopsAtFailure (es : List Exchange) (result : Except SessionError Capture) : Prop :=
  (∀ x ∈ es.dropLast, x.failure? = none) ∧
    ∀ x ∈ es.getLast?, ∀ e ∈ x.failure?, result = .error (.ofHost e)

section

variable {es fs : List Exchange} {x : Exchange} {result : Except SessionError Capture}

lemma stopsAtFailure_concat : StopsAtFailure (es ++ [x]) result ↔
    (∀ y ∈ es, y.failure? = none) ∧ ∀ e ∈ x.failure?, result = .error (.ofHost e) := by
  simp [StopsAtFailure]

lemma StopsAtFailure.of_none (hes : ∀ x ∈ es, x.failure? = none) : StopsAtFailure es result := by
  refine ⟨fun x hx => hes x (List.dropLast_subset es hx), fun x hx e he => ?_⟩
  rw [hes x (List.mem_of_getLast? hx)] at he
  exact absurd he (by simp)

/-- What goes well can come first. -/
lemma StopsAtFailure.append (hes : ∀ x ∈ es, x.failure? = none) (hfs : StopsAtFailure fs result) :
    StopsAtFailure (es ++ fs) result := by
  rcases List.eq_nil_or_concat fs with rfl | ⟨front, last, rfl⟩
  · rw [List.append_nil]
    exact .of_none hes
  · rw [List.concat_eq_append, stopsAtFailure_concat] at hfs
    rw [List.concat_eq_append, ← List.append_assoc, stopsAtFailure_concat]
    exact ⟨List.forall_mem_append.mpr ⟨hes, hfs.1⟩, hfs.2⟩

end

/-! ## What comes of the searches -/

namespace Lookup

@[simp] lemma isSearch_exchange (path : String) (l : Lookup) :
    (l.exchange path).call.isSearch = true := rfl

lemma not_vain_error (line : Nat) (e : HostError) : ¬ Vain ⟨line, .error e⟩ := by
  simp [Vain]

lemma vain_some_iff {line : Nat} {text : String} :
    Vain ⟨line, .ok (some text)⟩ ↔ trim text.toList = [] := by
  simp [Vain]

/-- A host that tells that a line is absent or blank does not fail. -/
lemma failure?_of_vain {l : Lookup} (path : String) (h : l.Vain) :
    (l.exchange path).failure? = none := by
  obtain ⟨line, answer⟩ := l
  obtain ⟨text, rfl, -⟩ := h
  rfl

end Lookup

/-- The lines at some distances from the line of a cursor, as far as there can be such lines. -/
def linesNear (cursor : Nat) (offsets : List Int) : List Int :=
  (offsets.map fun offset => (cursor : Int) + offset).filter
    fun line => 1 ≤ line ∧ line ≤ maxWord64

namespace Capture

/-- No line is looked up but those near the cursor. -/
lemma map_probedLine (cursor : Nat) (offsets : List Int) :
    (offsets.filterMap (probedLine cursor)).map (fun line : Nat => (line : Int)) =
      linesNear cursor offsets := by
  induction offsets with
  | nil => rfl
  | cons offset offsets ih =>
    rw [linesNear] at ih ⊢
    rw [List.map_cons, List.filterMap_cons, probedLine]
    split_ifs with hline
    · have hcast : (((cursor : Int) + offset).toNat : Int) = cursor + offset := by omega
      rw [List.filter_cons_of_pos (by simpa using hline), ← ih, List.map_cons, hcast]
    · rw [List.filter_cons_of_neg (by simpa using hline), ← ih]

/-- The lines of a document that were looked up are those near the cursor, one after another, and
all but the last one are absent or blank.  If the last one is as well, there are no more. -/
structure Probed (config : SessionConfig) (d : Document) (looked : List Lookup) : Prop where
  near : (looked.map fun l => (l.line : Int)) <+: linesNear d.cursorLine config.probeOffsets
  vain : ∀ l ∈ looked.dropLast, l.Vain
  all : (∀ l ∈ looked, l.Vain) →
    (looked.map fun l => (l.line : Int)) = linesNear d.cursorLine config.probeOffsets

/-- The line is the last one that was looked up, and the function is that of the same document; the
file and the target are those of another one. -/
structure About (c : Capture) (d : Document) (looked : List Lookup) (d' : Document) : Prop where
  line : ∃ line text, looked.getLast? = some ⟨line, .ok (some text)⟩ ∧ trim text.toList ≠ [] ∧
    c.line = some (trimmed text)
  signature : c.signature = trimmed (d.enclosingFunction.getD "")
  file : c.file = d'.path
  target : d'.target = some c.target

section

variable {config : SessionConfig} {d d' : Document} {looked : List Lookup} {lines : List Nat}
  {es : List Exchange} {e : SessionError}

lemma Sought.probed {found : Except SessionError String}
    (s : Sought (config.probeOffsets.filterMap (probedLine d.cursorLine)) looked found) :
    Probed config d looked := by
  have hcast : (looked.map fun l => (l.line : Int)) =
      (looked.map Lookup.line).map fun line : Nat => (line : Int) := by
    rw [List.map_map]
    rfl
  -- if the lines are not exhausted, the one that was looked up last was not passed over
  have hlast : ∀ {front : List Lookup} {l : Lookup}, looked = front ++ [l] → ¬ l.Vain →
      front.map Lookup.line ++ [l.line] <+:
        config.probeOffsets.filterMap (probedLine d.cursorLine) →
      (∀ k ∈ front, k.Vain) → Probed config d looked := by
    rintro front l rfl hl near vain
    refine ⟨?_, ?_, fun hall => absurd (hall l (by simp)) hl⟩
    · rw [hcast, ← map_probedLine, List.map_append, List.map_singleton]
      exact near.map _
    · rw [List.dropLast_concat]
      exact vain
  cases s with
  | exhausted all vain =>
    have heq : (looked.map fun l => (l.line : Int)) =
        linesNear d.cursorLine config.probeOffsets := by
      rw [hcast, all, map_probedLine]
    exact ⟨heq ▸ List.prefix_rfl, fun l hl => vain l (List.dropLast_subset looked hl),
      fun _ => heq⟩
  | @failed front line e near vain =>
    exact hlast rfl (Lookup.not_vain_error line e) near vain
  | found near vain code => exact hlast rfl (mt Lookup.vain_some_iff.mp code) near vain

/-- That there is no code near the cursor is found out by looking up all lines in vain. -/
lemma Sought.noUsableSourceLine_iff (s : Sought lines looked (.error e)) :
    e.kind = .noUsableSourceLine ↔ ∀ l ∈ looked, l.Vain := by
  cases s with
  | exhausted all vain => exact ⟨fun _ => vain, fun _ => rfl⟩
  | @failed front line e near vain =>
    refine ⟨fun hkind => absurd hkind (SessionError.kind_ofHost_ne e (by decide)),
      fun hall => ?_⟩
    exact absurd (hall ⟨line, .error e⟩ (by simp)) (Lookup.not_vain_error line e)

/-- A line of code is the last one that is looked up. -/
lemma Sought.last {code : String} (s : Sought lines looked (.ok code)) :
    ∃ line text, looked.getLast? = some ⟨line, .ok (some text)⟩ ∧ trim text.toList ≠ [] ∧
      code = trimmed text := by
  cases s with
  | @found front line text near vain nonblank =>
    exact ⟨line, text, List.getLast?_concat, nonblank, rfl⟩

lemma Sought.not_all_vain {code : String} (s : Sought lines looked (.ok code)) :
    ¬ ∀ l ∈ looked, l.Vain := by
  obtain ⟨line, text, hlast, nonblank, -⟩ := s.last
  intro hall
  exact nonblank (Lookup.vain_some_iff.mp (hall _ (List.mem_of_getLast? hlast)))

lemma failure?_of_all_vain (path : String) (hlooked : ∀ l ∈ looked, l.Vain) :
    ∀ x ∈ looked.map (Lookup.exchange path), x.failure? = none :=
  List.forall_mem_map.mpr fun l hl => Lookup.failure?_of_vain path (hlooked l hl)

lemma Sought.failure? {code : String} (path : String) (s : Sought lines looked (.ok code)) :
    ∀ x ∈ looked.map (Lookup.exchange path), x.failure? = none := by
  cases s with
  | found near vain nonblank =>
    rw [List.map_append, List.forall_mem_append]
    exact ⟨failure?_of_all_vain path vain, by simp [Lookup.exchange, Exchange.failure?]⟩

lemma Sought.stops (path : String) (s : Sought lines looked (.error e)) :
    StopsAtFailure (looked.map (Lookup.exchange path)) (.error e) := by
  cases s with
  | exhausted all vain => exact .of_none (failure?_of_all_vain path vain)
  | failed near vain =>
    rw [List.map_append, List.map_singleton, stopsAtFailure_concat]
    refine ⟨failure?_of_all_vain path vain, fun e he => ?_⟩
    rw [Option.some.inj he]

lemma Implemented.stops (i : Implemented config d es (.error e)) :
    StopsAtFailure es (.error e) := by
  cases i with
  | unswitched | alone | lost => simp [StopsAtFailure, Exchange.failure?]

lemma Implemented.failure? (i : Implemented config d es (.ok d')) :
    ∀ x ∈ es, x.failure? = none := by
  cases i with
  | itself | switched => simp [Exchange.failure?]

/-- Looking for the document that is compiled is a search, and asks for nothing but that. -/
lemma Implemented.calls {compiled : Except SessionError Document}
    (i : Implemented config d es compiled) :
    (∀ x ∈ es, x.call = .switchToSibling d.path config.implementationExtensions ∨
      x.call = .activeDocument) ∧ (config.isHeader d.path = false → es = []) := by
  cases i with
  | itself => simp
  | unswitched header | alone header | lost header | switched header => simp [header]

lemma Implemented.searches_eq {compiled : Except SessionError Document}
    (i : Implemented config d es compiled) : searches es = es := by
  refine searches_eq_self fun x hx => ?_
  rcases i.calls.1 x hx with hcall | hcall <;> rw [hcall] <;> rfl

lemma searches_looked (path : String) (looked : List Lookup) :
    searches (looked.map (Lookup.exchange path)) = looked.map (Lookup.exchange path) :=
  searches_eq_self (List.forall_mem_map.mpr fun l _ => l.isSearch_exchange path)

lemma searches_notes (d : Document) : searches (notes d) = [] := by
  rw [notes]
  split <;> rfl

/-- The searches of a conversation: the document, the lines that are looked up, and the document
that is compiled. -/
lemma searches_conversation (looked : List Lookup) {compiled : Except SessionError Document}
    (i : Implemented config d es compiled) :
    searches (⟨.activeDocument, .ok d⟩ ::
        (looked.map (Lookup.exchange d.path) ++ (notes d ++ es))) =
      ⟨.activeDocument, .ok d⟩ :: (looked.map (Lookup.exchange d.path) ++ es) := by
  have hrest : searches (looked.map (Lookup.exchange d.path) ++ (notes d ++ es)) =
      looked.map (Lookup.exchange d.path) ++ es := by
    rw [searches_append, searches_append, searches_looked, searches_notes, i.searches_eq,
      List.nil_append]
  exact congrArg (List.cons _) hrest

lemma searches_codeless (looked : List Lookup) :
    searches (⟨.activeDocument, .ok d⟩ :: looked.map (Lookup.exchange d.path)) =
      ⟨.activeDocument, .ok d⟩ :: (looked.map (Lookup.exchange d.path) ++ []) := by
  rw [List.append_nil]
  exact congrArg (List.cons _) (searches_looked d.path looked)

/-- If the host fails, that ends the conversation. -/
lemma Taken.stops {result : Except SessionError Capture} (t : Taken config es result) :
    StopsAtFailure (searches es) result := by
  have hactive : ∀ (d : Document), ∀ x ∈ [Exchange.mk .activeDocument (.ok d)],
      x.failure? = none := by
    simp [Exchange.failure?]
  cases t with
  | lost => simp [StopsAtFailure, searches, HostCall.isSearch, Exchange.failure?]
  | @codeless d looked e sought =>
    rw [searches_codeless, List.append_nil]
    exact (sought.stops d.path).append (hactive d)
  | @stranded d looked switch line e sought implemented =>
    rw [searches_conversation looked implemented]
    exact (implemented.stops.append (sought.failure? d.path)).append (hactive d)
  | @homeless d d' looked switch line sought implemented =>
    rw [searches_conversation looked implemented]
    exact (StopsAtFailure.of_none implemented.failure?).append (sought.failure? d.path)
      |>.append (hactive d)
  | @found d d' looked switch line target sought implemented =>
    rw [searches_conversation looked implemented]
    exact (StopsAtFailure.of_none implemented.failure?).append (sought.failure? d.path)
      |>.append (hactive d)

end

/-- What a session has searched for in order to find out what it is about, and what it has come to:
the document that is active first, the lines of it that were looked up, and what was asked to find
the document that is compiled. -/
structure Subject (config : SessionConfig) (d : Document) (looked : List Lookup)
    (switch : List Exchange) (result : Except SessionError Capture) : Prop where
  probed : Probed config d looked
  calls : ∀ x ∈ switch, x.call = .switchToSibling d.path config.implementationExtensions ∨
    x.call = .activeDocument
  source : config.isHeader d.path = false → switch = []
  vain : (∀ l ∈ looked, l.Vain) → switch = []
  noUsableSourceLine : (∃ e, result = .error e ∧ e.kind = .noUsableSourceLine) ↔
    ∀ l ∈ looked, l.Vain
  about : ∀ c, result = .ok c → ∃ d', About c d looked d' ∧
    (config.isHeader d.path = false → d' = d) ∧
    (config.isHeader d.path = true → ∃ sibling,
      switch = [⟨.switchToSibling d.path config.implementationExtensions, .ok (some sibling)⟩,
        ⟨.activeDocument, .ok d'⟩])

section

variable {config : SessionConfig} {d : Document} {looked : List Lookup} {es switch : List Exchange}
  {result : Except SessionError Capture}

lemma Implemented.kind {e : SessionError} (i : Implemented config d switch (.error e)) :
    e.kind ≠ .noUsableSourceLine := by
  cases i with
  | @unswitched e | @lost _ e => exact SessionError.kind_ofHost_ne e (by decide)
  | alone => simp [SessionError.noImplementationFile]

/-- Where there is a line of code, it remains to be said why the conversation fails, if it does, and
what the session is about, if it is known. -/
lemma Subject.of_code {line : String} {compiled : Except SessionError Document}
    (sought : Sought (config.probeOffsets.filterMap (probedLine d.cursorLine)) looked (.ok line))
    (implemented : Implemented config d switch compiled)
    (hfails : ∀ e, result = .error e → e.kind ≠ .noUsableSourceLine)
    (habout : ∀ c, result = .ok c → ∃ d', About c d looked d' ∧ compiled = .ok d') :
    Subject config d looked switch result where
  probed := sought.probed
  calls := implemented.calls.1
  source := implemented.calls.2
  vain hall := absurd hall sought.not_all_vain
  noUsableSourceLine :=
    ⟨fun ⟨e, he, hkind⟩ => absurd hkind (hfails e he), fun hall => absurd hall sought.not_all_vain⟩
  about := by
    intro c hc
    obtain ⟨d', hd', rfl⟩ := habout c hc
    refine ⟨d', hd', ?_⟩
    cases implemented with
    | itself source => exact ⟨fun _ => rfl, fun header => absurd header (by simp [source])⟩
    | @switched sibling d' header =>
      exact ⟨fun source => absurd header (by simp [source]), fun _ => ⟨sibling, rfl⟩⟩

/-- A conversation ends at once if the host does not tell which document is active. -/
lemma Taken.subject (t : Taken config es result) :
    (∃ e, searches es = [⟨.activeDocument, .error e⟩]) ∨
      ∃ d looked switch, searches es =
          ⟨.activeDocument, .ok d⟩ :: (looked.map (Lookup.exchange d.path) ++ switch) ∧
        Subject config d looked switch result := by
  cases t with
  | lost => exact .inl ⟨_, rfl⟩
  | @codeless d looked e sought =>
    refine .inr ⟨d, looked, [], searches_codeless looked, sought.probed, by simp, fun _ => rfl,
      fun _ => rfl, ?_, by simp⟩
    rw [← sought.noUsableSourceLine_iff]
    simp
  | @stranded d looked switch line e sought implemented =>
    refine .inr ⟨d, looked, switch, searches_conversation looked implemented,
      .of_code sought implemented ?_ (by simp)⟩
    rintro e ⟨rfl⟩
    exact implemented.kind
  | @homeless d d' looked switch line sought implemented =>
    refine .inr ⟨d, looked, switch, searches_conversation looked implemented,
      .of_code sought implemented ?_ (by simp)⟩
    rintro e ⟨rfl⟩
    simp [SessionError.notInProject]
  | @found d d' looked switch line target sought implemented target_eq =>
    refine .inr ⟨d, looked, switch, searches_conversation looked implemented,
      .of_code sought implemented (by simp) ?_⟩
    rintro c ⟨rfl⟩
    obtain ⟨number, text, hlast, nonblank, rfl⟩ := sought.last
    exact ⟨d', ⟨⟨number, text, hlast, nonblank, rfl⟩, rfl, rfl, target_eq⟩, rfl⟩

end

end Capture

/-! ## The rest of a run -/

lemma World.Asks.asked {σ : Type} {h : Host σ} {P : HostCall → Prop} {w w' : World σ}
    (hw : World.Asks h P w w') : World.Asked h P w (w.callsSince w') w' := by
  obtain ⟨es, hes⟩ := hw
  rwa [World.callsSince_of_log hes.log]

namespace Session

variable {σ : Type} {h : Host σ} {config : SessionConfig} {s s' : Session} {w w' : World σ}

/-- What a session has found out: what it is about, or why it fails. -/
inductive Captured (s : Session) : Except SessionError Capture → Prop
  /-- It knows what it is about. -/
  | found {c : Capture} (capture : s.capture = some c) : s.Captured (.ok c)
  /-- It does not know, and fails. -/
  | lost {e : SessionError} (capture : s.capture = none)
      (phase : s.phase = .failing e ∨ s.phase = .ended (.failed e)) : s.Captured (.error e)

/-- A session that waits knows what it is about. -/
lemma Captured.of_waiting {result : Except SessionError Capture} {work : Work} {wait : Wait}
    (hs : s.Captured result) (phase : s.phase = .waiting work wait) :
    ∃ c, s.capture = some c ∧ result = .ok c := by
  cases hs with
  | found capture => exact ⟨_, capture, rfl⟩
  | lost _ lost => rcases lost with lost | lost <;> exact absurd (phase.symm.trans lost) (by simp)

/-- No step leads back to the beginning. -/
lemma Move.begun (m : Move h config s w s' w') : s'.phase ≠ .fresh := by
  cases m with
  | rests phase => simp [phase]
  | @left _ exit => cases exit <;> simp [Exit.phase]
  | _ => simp

/-- A session that has begun does not search any more. -/
lemma Move.searches (m : Move h config s w s' w') (hs : s.phase ≠ .fresh) :
    searches (w.callsSince w') = [] := by
  obtain ⟨es, hlog, hes⟩ := m.asks
  rw [World.callsSince_of_log hlog]
  exact searches_eq_nil fun e he => Phase.isSearch_of_mayAsk hs (hes e he)

/-- A session goes on knowing what it knows, and if it does not know what it is about, it has
nothing more to do with options. -/
lemma Move.captured (m : Move h config s w s' w') (hs : s.phase ≠ .fresh)
    {result : Except SessionError Capture} (hresult : s.Captured result) :
    s'.Captured result ∧ ∀ e, result = .error e → World.Quiet h w w' := by
  cases hresult with
  | found capture => exact ⟨.found ((m.capture hs).trans capture), by simp⟩
  | @lost e capture phase =>
    have hlost : s'.phase = .ended (.failed e) ∧ World.Quiet h w w' := by
      rcases phase with phase | phase
      · cases m with
        | told phase' =>
          obtain rfl := Phase.failing.inj (phase.symm.trans phase')
          exact ⟨rfl, .tell w rfl⟩
        | _ => simp_all
      · cases m with
        | rests => exact ⟨phase, .refl w⟩
        | _ => simp_all
    exact ⟨.lost ((m.capture hs).trans capture) (.inr hlost.1), fun _ _ => hlost.2⟩

variable {others : World σ → World σ → Prop} {id : String} {mode : Mode} {s₀ : Session}
  {w₀ : World σ} {es : List Exchange}

/-- A session that has not begun has done nothing. -/
lemma Run.unbegun (r : Run h config others s₀ w₀ s w es) (hs : s.phase = .fresh) :
    s = s₀ ∧ w = w₀ ∧ es = [] := by
  cases r with
  | start => exact ⟨rfl, rfl, rfl⟩
  | @step s w _ _ => exact absurd hs (Session.move h config s w).begun
  | interrupt _ phase => exact absurd hs (by simp [Session.interrupt])
  | meanwhile _ phase => exact absurd (phase.symm.trans hs) (by simp)

/-- The first step of a session finds out what it is about. -/
lemma captured_begin (h : Host σ) (config : SessionConfig) (s : Session) (hs : s.capture = none)
    (w : World σ) :
    (s.begin h config w).1.Captured (Capture.take h config w).1 ∧
      (s.begin h config w).2 = (Capture.take h config w).2 := by
  rw [begin]
  split
  next htake =>
    rw [htake]
    exact ⟨.lost hs (.inl rfl), rfl⟩
  next htake =>
    rw [htake]
    exact ⟨.found rfl, rfl⟩

/-- All of a run a session knows what it found out in its first step, and the searches of that step
are all there are.  If it did not find out what it is about, nothing of what it asks has to do with
options. -/
theorem Run.captured (r : Run h config others { id, mode } w₀ s w es) (hbegun : s.phase ≠ .fresh) :
    s.Captured (Capture.take h config w₀).1 ∧
      searches es = searches (w₀.callsSince (Capture.take h config w₀).2) ∧
      ∀ e, (Capture.take h config w₀).1 = .error e →
        World.Asked h (fun c => c.isTool = false) w₀ es w := by
  induction r with
  | start => exact absurd rfl hbegun
  | @step s w es r ih =>
    by_cases hfresh : s.phase = .fresh
    · -- this is the first step
      obtain ⟨rfl, rfl, rfl⟩ := r.unbegun hfresh
      obtain ⟨hcaptured, hworld⟩ := captured_begin h config { id, mode } rfl w
      rw [List.nil_append, Session.step, hfresh]
      dsimp only
      rw [hworld]
      exact ⟨hcaptured, rfl, fun _ _ => (Capture.take_inquired h config w).quiet.asked⟩
    · obtain ⟨hcaptured, hsearches, hquiet⟩ := ih hfresh
      have m := Session.move h config s w
      obtain ⟨hnext, hmove⟩ := m.captured hfresh hcaptured
      refine ⟨hnext, ?_, fun e he => (hquiet e he).trans (hmove e he).asked⟩
      rw [searches_append, m.searches hfresh, List.append_nil, hsearches]
  | interrupt r phase ih =>
    obtain ⟨hcaptured, hsearches, -⟩ := ih (by simp [phase])
    obtain ⟨c, hc, hok⟩ := hcaptured.of_waiting phase
    rw [hok]
    exact ⟨.found hc, hsearches, by simp⟩
  | meanwhile r phase change ih =>
    obtain ⟨hcaptured, hsearches, -⟩ := ih hbegun
    obtain ⟨c, hc, hok⟩ := hcaptured.of_waiting phase
    rw [hok]
    exact ⟨.found hc, hsearches, by simp⟩

/-- So what it is about is what it found out at the start. -/
theorem Run.taken (r : Run h config others { id, mode } w₀ s w es) :
    (s = { id, mode } ∧ w = w₀) ∨
      s.phase ≠ .fresh ∧ ∀ c ∈ s.capture, (Capture.take h config w₀).1 = .ok c := by
  rcases eq_or_ne s.phase .fresh with hfresh | hbegun
  · obtain ⟨hs, hw, -⟩ := r.unbegun hfresh
    exact .inl ⟨hs, hw⟩
  · refine .inr ⟨hbegun, fun c hc => ?_⟩
    obtain ⟨hcaptured, -⟩ := r.captured hbegun
    generalize (Capture.take h config w₀).1 = result at hcaptured ⊢
    cases hcaptured with
    | found capture => rw [Option.some.inj (capture.symm.trans hc)]
    | lost capture => exact absurd (capture.symm.trans hc) (by simp)

/-- What becomes of a session that finds out what it is about.

It asks which document is active.  If the host tells, the session looks up lines of this document:
those at the distances of its settings from the cursor, in turn, without those that no line can
have, until a line is not blank or the host fails.  If all these lines are absent or blank, and only
then, there is no usable source line.  If there is one, the line, trimmed, and the function are
those of this document; the file and the target are those of the document that is active at the end
of the search, which is another one only if the first one is a header.

Whenever the host fails, the search ends at once with its error.  A session that does not find out
what it is about has nothing to do with options, and they are what they were. -/
theorem subject_of_run (r : Run h config others { id, mode } w₀ s w es)
    (hbegun : s.phase ≠ .fresh) :
    ∃ result, s.Captured result ∧ StopsAtFailure (searches es) result ∧
      ((∃ e, searches es = [⟨.activeDocument, .error e⟩]) ∨
        ∃ d looked switch, searches es =
            ⟨.activeDocument, .ok d⟩ :: (looked.map (Lookup.exchange d.path) ++ switch) ∧
          Capture.Subject config d looked switch result) ∧
      ∀ e, result = .error e → toolExchanges es = [] ∧
        ∀ (V : OptionView h) (file : String) (target : Target),
          V.options w.host file target = V.options w₀.host file target := by
  obtain ⟨asked, hasked, taken⟩ := Capture.take_asked h config w₀
  obtain ⟨hcaptured, hsearches, hquiet⟩ := r.captured hbegun
  rw [World.callsSince_of_log hasked.log] at hsearches
  refine ⟨_, hcaptured, hsearches ▸ taken.stops, hsearches ▸ taken.subject, fun e he => ?_⟩
  have hes := hquiet e he
  exact ⟨toolExchanges_eq_nil hes.mem, fun V file target => V.options_quiet ⟨es, hes⟩⟩

/-- A header at the last line that there can be. -/
def lastLineOfHeader : Document where
  path := "a.h"
  cursorLine := maxWord64
  enclosingFunction := some " f() "

/-- The file that implements it. -/
def implementationFile : Document where
  path := "a.cpp"
  cursorLine := 1
  enclosingFunction := some "g()"
  target := some ⟨"demo", "Debug", "x64"⟩

/-- A host that shows the header until the other file is made active, and keeps no options. -/
def headerHost : Host Bool where
  reply
    | .activeDocument, s, t => ⟨.ok (if s then implementationFile else lastLineOfHeader), s, t, []⟩
    | .lineText path line, s, t =>
      ⟨.ok (if path = "a.h" ∧ line + 1 = maxWord64 then some " int x; " else some "	"), s, t, []⟩
    | .switchToSibling _ _, _, t => ⟨.ok (some "a.cpp"), true, t, []⟩
    | .readOptions _ _, s, t => ⟨.error (.failed "no options"), s, t, []⟩
    | .writeOptions _ _ _, s, t => ⟨.error (.failed "no options"), s, t, []⟩
    | .compileFile _, s, t => ⟨.crashed, s, t, []⟩
    | .buildProject _, s, t => ⟨.ok (), s, t, []⟩
    | .buildOutput, s, t => ⟨.ok "", s, t, []⟩
    | .openArtifact _ _, s, t => ⟨.ok (), s, t, []⟩
    | .showStatus _, s, t | .addDiagnostic _, s, t | .showError _ _, s, t
    | .appendOutput _, s, t | .showProgress _, s, t => ⟨(), s, t, []⟩

/-- The line after the last one is skipped, and the line and the function of the header go with the
file and the target of the other document. -/
theorem subject_of_run_of_header :
    let poll : Session × World Bool :=
      Session.poll headerHost { artifactDir := "" } { id := "1", mode := .assembly }
        { host := false }
    let es := World.callsSince { host := false } poll.2
    poll.1.phase ≠ .fresh ∧
      (searches es).map Exchange.call =
        [.activeDocument, .lineText "a.h" maxWord64, .lineText "a.h" (maxWord64 - 1),
          .switchToSibling "a.h" ["cpp", "cc"], .activeDocument] ∧
      ∃ d looked switch, searches es =
          ⟨.activeDocument, .ok d⟩ :: (looked.map (Lookup.exchange d.path) ++ switch) ∧
        Capture.Subject { artifactDir := "" } d looked switch
          (.ok ⟨"a.cpp", ⟨"demo", "Debug", "x64"⟩, "f()", some "int x;"⟩) := by
  intro poll es
  have hbegun : poll.1.phase ≠ .fresh := by decide +kernel
  have hcalls : (searches es).map Exchange.call =
      [.activeDocument, .lineText "a.h" maxWord64, .lineText "a.h" (maxWord64 - 1),
        .switchToSibling "a.h" ["cpp", "cc"], .activeDocument] := by decide +kernel
  have hcapture : poll.1.capture =
      some ⟨"a.cpp", ⟨"demo", "Debug", "x64"⟩, "f()", some "int x;"⟩ := by decide +kernel
  have hrun : Run headerHost { artifactDir := "" } (fun _ _ => False)
      { id := "1", mode := .assembly } { host := false } poll.1 poll.2 es := Run.polled
  obtain ⟨result, hcaptured, -, hsubject, -⟩ := subject_of_run hrun hbegun
  cases hcaptured with
  | lost capture => exact absurd (capture.symm.trans hcapture) (by simp)
  | found capture =>
    obtain rfl := Option.some.inj (capture.symm.trans hcapture)
    rcases hsubject with ⟨e, he⟩ | hsubject
    · rw [he] at hcalls
      exact absurd hcalls (by simp)
    · exact ⟨hbegun, hcalls, hsubject⟩

end Session

end BuildLens
