/-
Waiting for the end of a build.

A session that waits looks into the hub now and then, and meanwhile time passes and further events
are published.  `Wait.Course` describes what can come of this until a look ends the wait, and a
session that waits is on such a course (`Session.Run.waitCourse`).  On it the wait skips events
only when they are no longer kept (`Wait.Course.reading`), so a look ends it with the first event
about the project that is kept (`Wait.Course.endsAt_iff`).

* `Wait.ends_on_first_done_iff`: a look ends the wait with the first event that told how the build
  ended if and only if that event is still kept, and the session may notice everything up to it
  in this turn.  An event that is no longer kept is lost for the session.
* `Wait.ends_on_done_of_project`: what ends a wait is an event about the project, whichever
  configuration and platform it is about, so a wait ends with the event about its own target if and
  only if no event about another build of the same project comes first.
-/
import BuildLens.Proofs.Hub
import BuildLens.Proofs.Session.Course

namespace BuildLens

/-! ## Events about a target -/

/-- How the build of a target ended, if that is what an event tells.  An event that names no
configuration or no platform is about all of them. -/
def BuildEvent.outcomeFor (target : Target) : BuildEvent → Option Bool
  | .projectDone project configuration platform _ success _ =>
    if project = target.project ∧ (configuration = "" ∨ configuration = target.configuration) ∧
      (platform = "" ∨ platform = target.platform) then some success else none
  | _ => none

lemma BuildEvent.outcomeOf_of_outcomeFor {target : Target} {e : BuildEvent} {b : Bool}
    (he : e.outcomeFor target = some b) : e.outcomeOf target.project = some b := by
  cases e with
  | projectDone project configuration platform _ success _ =>
    rw [outcomeFor] at he
    split at he
    next hsame => rw [outcomeOf, if_pos hsame.1, Option.some.inj he]
    next => exact absurd he (by simp)
  | buildBegin | buildDone | projectBegin => exact absurd he (by simp [outcomeFor])

open BuildEvent (outcomeOf outcomeFor)

/-- What tells how the build of a target ended tells so of its project. -/
lemma Hub.told_of_told_for {h : Hub} {target : Target} {p : Nat} {b : Bool}
    (told : h.told (outcomeFor target) p = some b) :
    h.told (outcomeOf target.project) p = some b := by
  rw [Hub.told, Option.bind_eq_some_iff] at told ⊢
  obtain ⟨e, he, houtcome⟩ := told
  exact ⟨e, he, BuildEvent.outcomeOf_of_outcomeFor houtcome⟩

/-! ## A look into the hub -/

namespace Wait

variable {σ : Type} {w : World σ} {wait : Wait} {seconds p : Nat} {b : Bool}

/-- A look ends a wait with what the event at a position tells about the end of the build. -/
structure EndsAt (wait : Wait) (w : World σ) (seconds position : Nat) (success : Bool) :
    Prop where
  ok : (wait.look w seconds).1 = some (.ok success)
  receiver : (wait.look w seconds).2.1.receiver = ⟨position + 1⟩

/-- A look ends a wait with the first event about the end of the build of the project, if
the session may notice everything up to it. -/
lemma EndsAt.of_first
    (first : w.hub.First (outcomeOf wait.target.project) (w.hub.resume wait.receiver) p b)
    (noticed : w.hub.backlog wait.receiver p < w.allowance) : EndsAt wait w seconds p b := by
  have hawait := Hub.awaitOutcome_found first noticed
  constructor <;> rw [look, if_neg (by omega), hawait]

/-- Whatever tells how the build ended is beyond what the session may notice. -/
def Unnoticed (wait : Wait) (w : World σ) : Prop :=
  ∀ p b, w.hub.First (outcomeOf wait.target.project) (w.hub.resume wait.receiver) p b →
    w.allowance ≤ w.hub.backlog wait.receiver p

/-- A session that does not end its wait has not noticed how the build ended. -/
lemma Unnoticed.of_look (vain : (wait.look w seconds).1 = none) : wait.Unnoticed w := by
  intro p b first
  by_contra hlt
  have hends : EndsAt wait w seconds p b := .of_first first (by omega)
  rw [hends.ok] at vain
  exact absurd vain (by simp)

/-- A look in vain takes a wait on, to the last event or as far as the session may notice
events, and the wait ends only if it is given up. -/
lemma look_vain (hallowance : 0 < w.allowance) (unnoticed : wait.Unnoticed w) :
    let left := w.allowance - w.hub.lag wait.receiver
    let taken := min left (w.hub.count - w.hub.resume wait.receiver)
    let later : Wait := { wait with receiver := ⟨w.hub.resume wait.receiver + taken⟩ }
    (wait.look w seconds).2.1 = later ∧ (wait.look w seconds).1 =
      (later.giveUp seconds { w with allowance := left - taken }).1.map .error := by
  -- at most one notice of a loss, and the allowance suffices for that
  have hlag : w.hub.lag wait.receiver ≤ w.allowance := by
    rw [Hub.lag]
    split <;> omega
  have hawait := Hub.awaitOutcome_vain hlag unnoticed
  rw [look, if_neg (by omega), hawait]
  exact ⟨rfl, rfl⟩

/-- A wait that is given up does not end with the outcome of a build. -/
lemma giveUp_ne_ok (error : Option SessionError) :
    (error.map .error : Option (Except SessionError Bool)) ≠ some (.ok b) := by
  cases error <;> simp

/-- A look that ends a wait with the outcome of a build has found the first event about the
project that can be read. -/
lemma first_of_look_ok (ok : (wait.look w seconds).1 = some (.ok b)) :
    ∃ p, w.hub.First (outcomeOf wait.target.project) (w.hub.resume wait.receiver) p b ∧
      w.hub.backlog wait.receiver p < w.allowance := by
  by_contra hno
  rcases Nat.eq_zero_or_pos w.allowance with hzero | hpos
  · rw [look, if_pos hzero] at ok
    exact absurd ok (by simp)
  · have unnoticed : wait.Unnoticed w := by
      intro p b' first
      by_contra hlt
      have hfound : EndsAt wait w seconds p b' := .of_first first (by omega)
      have hok := hfound.ok
      rw [ok] at hok
      cases hok
      exact hno ⟨p, first, by omega⟩
    rw [(look_vain hpos unnoticed).2] at ok
    exact giveUp_ne_ok _ ok

lemma endsAt_iff : EndsAt wait w seconds p b ↔
    w.hub.First (outcomeOf wait.target.project) (w.hub.resume wait.receiver) p b ∧
      w.hub.backlog wait.receiver p < w.allowance := by
  constructor
  · rintro ⟨ok, receiver⟩
    obtain ⟨q, first, noticed⟩ := first_of_look_ok ok
    have hq : EndsAt wait w seconds q b := .of_first first noticed
    rw [hq.receiver, Receiver.mk.injEq] at receiver
    have hqp : q = p := by omega
    subst hqp
    exact ⟨first, noticed⟩
  · rintro ⟨first, noticed⟩
    exact .of_first first noticed

lemma exists_endsAt (ok : (wait.look w seconds).1 = some (.ok b)) :
    ∃ p, EndsAt wait w seconds p b := by
  obtain ⟨p, first, noticed⟩ := first_of_look_ok ok
  exact ⟨p, .of_first first noticed⟩

end Wait

/-! ## Courses -/

/-- A world after some time in which others went on. -/
structure World.Later {σ : Type} (w w' : World σ) : Prop where
  hub : w.hub.Grows w'.hub
  abandonments : w.hub.abandonments ≤ w'.hub.abandonments
  clock : w.clock ≤ w'.clock

lemma Hub.grows_signal (h : Hub) (s : Signal) : h.Grows (h.signal s) := by
  cases s with
  | event e => exact ⟨rfl, [e], rfl⟩
  | abandon => exact ⟨rfl, [], rfl⟩

lemma Hub.grows_signalAll (h : Hub) (signals : List Signal) : h.Grows (h.signalAll signals) := by
  induction signals generalizing h with
  | nil => exact .refl h
  | cons s signals ih => exact (h.grows_signal s).trans (ih (h.signal s))

namespace Wait

variable {σ : Type}

/-- What can come of the build of a target that is started in a world, as long as the wait for
it goes on. -/
inductive Course (h : Host σ) (config : SessionConfig) (target : Target) (w₀ : World σ) :
    Wait → World σ → Prop
  | start {wait : Wait} {w : World σ} (started : Wait.start h config target w₀ = (.ok wait, w)) :
      Course h config target w₀ wait w
  | look {wait wait' : Wait} {w w' : World σ} (c : Course h config target w₀ wait w)
      (vain : wait.look w config.timeoutSeconds = (none, wait', w')) :
      Course h config target w₀ wait' w'
  | later {wait : Wait} {w w' : World σ} (c : Course h config target w₀ wait w)
      (later : w.Later w') : Course h config target w₀ wait w'

/-- What a wait has read since a position: it has read no event yet that will be published, and
has skipped none about the project that is still kept. -/
structure Reading (h : Hub) (n : Nat) (wait : Wait) : Prop where
  start_le : n ≤ wait.receiver.next
  le_count : wait.receiver.next ≤ h.count
  skipped : ∀ q, n ≤ q → q < wait.receiver.next →
    h.told (outcomeOf wait.target.project) q ≠ none → q < h.oldest

section

variable {h : Host σ} {config : SessionConfig} {target : Target} {w₀ w : World σ} {wait : Wait}

lemma Reading.grows {hub hub' : Hub} {n : Nat} (a : Reading hub n wait) (g : hub.Grows hub') :
    Reading hub' n wait := by
  refine ⟨a.start_le, Nat.le_trans a.le_count g.count_le, fun q hq hlt htold => ?_⟩
  have hle := a.le_count
  rw [g.told_eq (by omega)] at htold
  exact Nat.lt_of_lt_of_le (a.skipped q hq hlt htold) g.oldest_le

/-- A look in vain keeps what has been read. -/
lemma Reading.look {n : Nat} (seconds : Nat) (a : Reading w.hub n wait)
    (vain : (wait.look w seconds).1 = none) :
    Reading w.hub n (wait.look w seconds).2.1 := by
  rcases Nat.eq_zero_or_pos w.allowance with hzero | hpos
  · rw [Wait.look, if_pos hzero]
    exact a
  · have unnoticed := Unnoticed.of_look vain
    have hstart := a.start_le
    have hcount := a.le_count
    have hresume : w.hub.resume wait.receiver = max wait.receiver.next w.hub.oldest := rfl
    have holdest : w.hub.oldest ≤ w.hub.count := Nat.sub_le ..
    rw [(look_vain hpos unnoticed).1]
    refine ⟨?_, ?_, fun q hq hlt htold => ?_⟩
    · dsimp only
      omega
    · dsimp only
      omega
    · dsimp only at hlt htold
      by_contra hkept
      -- the event was read, so the look was not in vain
      have hread : w.hub.resume wait.receiver ≤ q := by
        by_contra hbefore
        have hskipped := a.skipped q hq (by omega) htold
        omega
      rcases Hub.first_or_none w.hub (outcomeOf wait.target.project)
        (w.hub.resume wait.receiver) with ⟨p, b, first⟩ | hno
      · have hp := unnoticed p b first
        have hpq : p ≤ q := by
          by_contra hqp
          exact htold (first.none_before q hread (by omega))
        rw [Hub.backlog] at hp
        omega
      · exact htold (hno q hread)

/-- The first event about the project that can be read is the first one that is kept, since
none of these was skipped. -/
lemma Reading.first_iff {n p : Nat} {b : Bool} (a : Reading w.hub n wait) :
    w.hub.First (outcomeOf wait.target.project) (w.hub.resume wait.receiver) p b ↔
      w.hub.First (outcomeOf wait.target.project) (max n w.hub.oldest) p b := by
  have hstart := a.start_le
  have hresume : w.hub.resume wait.receiver = max wait.receiver.next w.hub.oldest := rfl
  constructor
  · intro first
    have hle := first.le
    refine ⟨by omega, first.told_eq, fun q hq hqp => ?_⟩
    by_cases hread : w.hub.resume wait.receiver ≤ q
    · exact first.none_before q hread hqp
    · -- the receiver is beyond an event that is kept, so that one tells nothing
      by_contra htold
      have hskipped := a.skipped q (by omega) (by omega) htold
      omega
  · intro first
    have hle := first.le
    refine first.later (by omega) ?_
    by_contra hlt
    have hskipped := a.skipped p (by omega) (by omega) (by rw [first.told_eq]; simp)
    omega

/-- A wait that starts has read nothing, and the build may have published events already. -/
lemma start_ok (started : Wait.start h config target w₀ = (.ok wait, w)) :
    wait.target = target ∧ wait.receiver = ⟨w₀.hub.count⟩ ∧ w₀.hub.Grows w.hub := by
  rw [Wait.start] at started
  dsimp only at started
  rcases hask : World.ask h { w₀ with hub := w₀.hub.subscribe.1 } (.buildProject target) with
    ⟨e | ⟨⟩, w₁⟩
  · rw [hask] at started
    exact absurd started (by simp)
  · rw [hask] at started
    obtain ⟨rfl, rfl⟩ : _ ∧ w₁ = w := by simpa using started
    refine ⟨rfl, rfl, ?_⟩
    have hgrows : w₀.hub.subscribe.1.Grows w₁.hub := by
      rw [← show (World.ask h { w₀ with hub := w₀.hub.subscribe.1 } (.buildProject target)).2 = w₁
        by rw [hask]]
      exact Hub.grows_signalAll ..
    exact ⟨hgrows.capacity, hgrows.published⟩

lemma look_target (w : World σ) (seconds : Nat) (wait : Wait) :
    (wait.look w seconds).2.1.target = wait.target := by
  rw [Wait.look]
  split
  · rfl
  · dsimp only
    split <;> rfl

lemma look_hub (w : World σ) (seconds : Nat) (wait : Wait) :
    (wait.look w seconds).2.2.hub = w.hub := by
  obtain ⟨allowance, hworld⟩ := look_world w seconds wait
  rw [hworld]

/-- On a course a wait skips only events that are no longer kept. -/
theorem Course.reading (c : Course h config target w₀ wait w) :
    wait.target = target ∧ w₀.hub.Grows w.hub ∧ Reading w.hub w₀.hub.count wait := by
  induction c with
  | start started =>
    obtain ⟨htarget, hreceiver, hgrows⟩ := start_ok started
    refine ⟨htarget, hgrows, ?_, ?_, fun q hq hlt => ?_⟩
    · rw [hreceiver]
    · rw [hreceiver]
      exact hgrows.count_le
    · rw [hreceiver] at hlt
      exact absurd hq (not_le.mpr hlt)
  | @look wait wait' w w' c vain ih =>
    obtain ⟨htarget, hgrows, hreading⟩ := ih
    have hhub := look_hub w config.timeoutSeconds wait
    have hsame := look_target w config.timeoutSeconds wait
    have hnext := hreading.look config.timeoutSeconds (by rw [vain])
    rw [vain] at hhub hsame hnext
    rw [show w'.hub = w.hub from hhub]
    exact ⟨hsame.trans htarget, hgrows, hnext⟩
  | later c later ih =>
    obtain ⟨htarget, hgrows, hreading⟩ := ih
    exact ⟨htarget, hgrows.trans later.hub, hreading.grows later.hub⟩

end

end Wait

/-! ## Sessions that wait -/

namespace Session

variable {σ : Type} {h : Host σ} {config : SessionConfig} {others : World σ → World σ → Prop}
  {s₀ s : Session} {w₀ w : World σ} {es : List Exchange} {work : Work} {wait : Wait}

/-- A session waits after it has started a build, or after a look in vain. -/
lemma step_waiting (phase : (s.step h config w).1.phase = .waiting work wait) :
    (s.phase = .refused work ∧
      Wait.start h config work.capture.target w = (.ok wait, (s.step h config w).2)) ∨
    ∃ wait₀, s.phase = .waiting work wait₀ ∧
      wait₀.look w config.timeoutSeconds = (none, wait, (s.step h config w).2) := by
  -- no other move leads to a wait
  have before : (∃ work', s.phase = .refused work') ∨
      ∃ work' wait₀, s.phase = .waiting work' wait₀ := by
    have m := move h config s w
    generalize (s.step h config w).1 = s', (s.step h config w).2 = w' at m phase
    cases m with
    | built before => exact .inl ⟨_, before⟩
    | waits before => exact .inr ⟨_, _, before⟩
    | @left _ exit _ => cases exit <;> exact absurd phase (by simp [Exit.phase])
    | rests before => exact absurd (before.symm.trans phase) (by simp)
    | _ => exact absurd phase (by simp)
  rcases before with ⟨work', before⟩ | ⟨work', wait₀, before⟩
  · left
    rw [step, before] at phase ⊢
    dsimp only [build] at phase ⊢
    rcases hstart : Wait.start h config work'.capture.target w with ⟨e | wait', w'⟩
    · rw [hstart] at phase
      exact absurd phase (by simp)
    · rw [hstart] at phase
      obtain ⟨rfl, rfl⟩ : work' = work ∧ wait' = wait := by simpa using phase
      exact ⟨rfl, hstart⟩
  · right
    rw [step, before] at phase ⊢
    dsimp only [proceed] at phase ⊢
    rcases hlook : wait₀.look w config.timeoutSeconds with ⟨_ | result, wait', w'⟩
    · rw [hlook] at phase
      obtain ⟨rfl, rfl⟩ : work' = work ∧ wait' = wait := by simpa using phase
      exact ⟨wait₀, rfl, hlook⟩
    · rw [hlook] at phase
      exact absurd phase (by simp)

/-- A session that waits is on a course of its wait, if time only goes on and events are only
published while it does so. -/
theorem Run.waitCourse (r : Run h config others s₀ w₀ s w es) (hs₀ : s₀.phase = .fresh)
    (hothers : ∀ w w', others w w' → w.Later w') (phase : s.phase = .waiting work wait) :
    ∃ s₁ w₁ es₁, Run h config others s₀ w₀ s₁ w₁ es₁ ∧ s₁.phase = .refused work ∧
      Wait.Course h config work.capture.target w₁ wait w := by
  induction r generalizing wait with
  | start => exact absurd (hs₀.symm.trans phase) (by simp)
  | step r ih =>
    rcases step_waiting phase with ⟨before, started⟩ | ⟨wait₀, before, vain⟩
    · exact ⟨_, _, _, r, before, .start started⟩
    · obtain ⟨s₁, w₁, es₁, r₁, refused, c⟩ := ih before
      exact ⟨s₁, w₁, es₁, r₁, refused, c.look vain⟩
  | interrupt => exact absurd phase (by simp [Session.interrupt])
  | meanwhile r before change ih =>
    obtain ⟨s₁, w₁, es₁, r₁, refused, c⟩ := ih phase
    exact ⟨s₁, w₁, es₁, r₁, refused, c.later (hothers _ _ change)⟩

end Session

/-! ## The end of a wait -/

namespace Wait

section

variable {σ : Type} {h : Host σ} {config : SessionConfig} {target : Target} {w₀ w : World σ}
  {wait : Wait}

/-- On a course, a look ends a wait at the first event about the end of the build of the project
that was published since the start and is still kept, if the session may notice everything up
to it. -/
lemma Course.endsAt_iff {p : Nat} {b : Bool} (c : Course h config target w₀ wait w) :
    EndsAt wait w config.timeoutSeconds p b ↔
      w.hub.First (outcomeOf target.project) (max w₀.hub.count w.hub.oldest) p b ∧
        w.hub.backlog wait.receiver p < w.allowance := by
  obtain ⟨rfl, -, hreading⟩ := c.reading
  rw [Wait.endsAt_iff, hreading.first_iff]

/-- If an event about the end of the build is still to be read, but the session may not notice
so much, then the wait goes on before that event, or ends since its time is over. -/
lemma Course.behind {m : Nat} {b : Bool} (c : Course h config target w₀ wait w)
    (first : w.hub.First (outcomeOf target.project) (max w₀.hub.count w.hub.oldest) m b)
    (behind : w.allowance ≤ w.hub.backlog wait.receiver m) :
    (wait.look w config.timeoutSeconds).2.1.receiver.next ≤ m ∧
      ((wait.look w config.timeoutSeconds).1 = none ∨
        (wait.look w config.timeoutSeconds).1 =
          some (.error (.timedOut config.timeoutSeconds target)) ∧ wait.deadline ≤ w.clock) := by
  obtain ⟨rfl, -, hreading⟩ := c.reading
  rw [← hreading.first_iff] at first
  have hle := first.le
  have hlt := first.lt_count
  have hresume : w.hub.resume wait.receiver = max wait.receiver.next w.hub.oldest := rfl
  rcases Nat.eq_zero_or_pos w.allowance with hzero | hpos
  · rw [Wait.look, if_pos hzero]
    exact ⟨by dsimp only; omega, .inl rfl⟩
  · have unnoticed : wait.Unnoticed w := by
      intro p b' first'
      obtain ⟨rfl, -⟩ := first'.unique first
      exact behind
    rw [Hub.backlog] at behind
    rw [(look_vain hpos unnoticed).1, (look_vain hpos unnoticed).2]
    refine ⟨by dsimp only; omega, ?_⟩
    -- nothing is left of the allowance, so an abandonment is not noticed
    rw [giveUp, if_neg (by dsimp only; omega)]
    by_cases hdeadline : wait.deadline ≤ w.clock
    · rw [if_pos hdeadline]
      exact .inr ⟨rfl, hdeadline⟩
    · rw [if_neg hdeadline]
      exact .inl rfl

/-- Let `m` be the first event since the start of a build that told how the build of its project
ended.  The next look of the session ends the wait with it if and only if it is still kept, that
is at most as many events as the hub keeps were published from it on, and the session may notice
everything up to it.  If it is kept but the session may not notice so much, the wait goes on
before it, unless the time is over.  If it is no longer kept, then only a later event can end the
wait with an outcome. -/
theorem ends_on_first_done_iff (c : Course h config target w₀ wait w) {m : Nat} {b : Bool}
    (first : w.hub.First (outcomeOf target.project) w₀.hub.count m b) :
    (EndsAt wait w config.timeoutSeconds m b ↔
      w.hub.count ≤ m + w.hub.capacity ∧ w.hub.backlog wait.receiver m < w.allowance) ∧
    (w.hub.count ≤ m + w.hub.capacity → w.allowance ≤ w.hub.backlog wait.receiver m →
      (wait.look w config.timeoutSeconds).2.1.receiver.next ≤ m ∧
      ((wait.look w config.timeoutSeconds).1 = none ∨
        (wait.look w config.timeoutSeconds).1 =
          some (.error (.timedOut config.timeoutSeconds target)) ∧ wait.deadline ≤ w.clock)) ∧
    (m + w.hub.capacity < w.hub.count → ∀ b',
      (wait.look w config.timeoutSeconds).1 = some (.ok b') →
        ∃ p, m < p ∧ EndsAt wait w config.timeoutSeconds p b') := by
  have holdest : w.hub.oldest = w.hub.count - w.hub.capacity := rfl
  have hlt := first.lt_count
  have hkept_first : w.hub.count ≤ m + w.hub.capacity →
      w.hub.First (outcomeOf target.project) (max w₀.hub.count w.hub.oldest) m b := by
    intro hkept
    have hle := first.le
    exact first.later (by omega) (by omega)
  refine ⟨⟨?_, ?_⟩, ?_, ?_⟩
  · intro hends
    obtain ⟨hfirst, noticed⟩ := c.endsAt_iff.mp hends
    have hle := hfirst.le
    exact ⟨by omega, noticed⟩
  · rintro ⟨hkept, noticed⟩
    exact c.endsAt_iff.mpr ⟨hkept_first hkept, noticed⟩
  · intro hkept behind
    exact c.behind (hkept_first hkept) behind
  · intro hlost b' ok
    obtain ⟨p, hends⟩ := exists_endsAt ok
    have hle := (c.endsAt_iff.mp hends).1.le
    exact ⟨p, by omega, hends⟩

end

/-- A host that starts every build, and publishes nothing while it does so. -/
def buildingHost : Host OptionTable :=
  OptionTable.host (OptionTable.document ⟨"app", "Debug", "x64"⟩) fun _ new => (.ok (), new)

/-- The debug build of a project. -/
def debug : Target :=
  ⟨"app", "Debug", "x64"⟩

/-- The event that tells how the build of a target ended. -/
def doneEvent (target : Target) (success : Bool) : BuildEvent :=
  .projectDone target.project target.configuration target.platform "" success (.ofClock 0 0)

/-- A wait for the build of a target that starts in a world. -/
def waitFrom (target : Target) (w : World OptionTable) : Wait :=
  ⟨target, ⟨w.hub.count⟩, w.hub.watch, w.clock + 300000⟩

/-- The world after the build of a target was started. -/
def afterStart (target : Target) (w : World OptionTable) : World OptionTable :=
  (Wait.start buildingHost { artifactDir := "" } target w).2

lemma start_buildingHost (target : Target) (w : World OptionTable) :
    Wait.start buildingHost { artifactDir := "" } target w =
      (.ok (waitFrom target w), afterStart target w) := rfl

/-- A world with a hub that keeps a single event. -/
def narrow : World OptionTable where
  host := {}
  hub := .ofCapacity 1

/-- The build of a project has ended, and then that of the solution.  The session that waits has
not looked since. -/
def overrun : World OptionTable :=
  let w := afterStart debug narrow
  { w with hub := (w.hub.publish (doneEvent debug true)).publish (.solutionDone (.ofClock 0 0)) }

/-- A session whose event is no longer kept goes on waiting for it. -/
theorem overrun_not_endsAt :
    Course buildingHost { artifactDir := "" } debug narrow (waitFrom debug narrow) overrun ∧
      overrun.hub.First (outcomeOf "app") 0 0 true ∧
      ¬ EndsAt (waitFrom debug narrow) overrun 300 0 true ∧
      ((waitFrom debug narrow).look overrun 300).1 = none := by
  have c : Course buildingHost { artifactDir := "" } debug narrow (waitFrom debug narrow)
      overrun :=
    (Course.start (start_buildingHost debug narrow)).later
      ⟨⟨rfl, [_, _], rfl⟩, Nat.le_refl _, Nat.le_refl _⟩
  have first : overrun.hub.First (outcomeOf debug.project) 0 0 true :=
    ⟨Nat.le_refl 0, by decide +kernel, fun q _ hq => absurd hq (Nat.not_lt_zero q)⟩
  refine ⟨c, first, ?_, by decide +kernel⟩
  intro hends
  have hkept := ((ends_on_first_done_iff c first).1.mp hends).1
  exact absurd hkept (by decide +kernel)

section

variable {σ : Type} {h : Host σ} {config : SessionConfig} {target : Target} {w₀ w : World σ}
  {wait : Wait}

/-- A wait for the build of a target ends with an outcome at the first event about its project
that was published since the start and is still kept, if the session may notice everything up
to it, whichever configuration and platform that event is about.  So it ends with the first
event about its own target if and only if none about another build of the project comes before,
and otherwise it ends with one of those.  And if of two sessions that wait for builds of one
project one ends its wait with an event, then the other one, if it has started in the meantime
and the event is still kept, ends its wait with the same event. -/
theorem ends_on_done_of_project (c : Course h config target w₀ wait w) :
    (∀ b, (wait.look w config.timeoutSeconds).1 = some (.ok b) →
      ∃ p, EndsAt wait w config.timeoutSeconds p b) ∧
    (∀ p b, EndsAt wait w config.timeoutSeconds p b ↔
      w.hub.First (outcomeOf target.project) (max w₀.hub.count w.hub.oldest) p b ∧
        w.hub.backlog wait.receiver p < w.allowance) ∧
    (∀ m b, w.hub.First (outcomeFor target) (max w₀.hub.count w.hub.oldest) m b →
      w.hub.backlog wait.receiver m < w.allowance →
        (EndsAt wait w config.timeoutSeconds m b ↔ ∀ q, max w₀.hub.count w.hub.oldest ≤ q →
          q < m → w.hub.told (outcomeOf target.project) q = none) ∧
        (¬ EndsAt wait w config.timeoutSeconds m b → ∃ p b', p < m ∧
          EndsAt wait w config.timeoutSeconds p b' ∧
          w.hub.told (outcomeFor target) p = none)) ∧
    ∀ (config' : SessionConfig) (target' : Target) (w₀' w' : World σ) (wait' : Wait),
      Course h config' target' w₀' wait' w' → target'.project = target.project →
      w.hub.Grows w'.hub → w₀.hub.count ≤ w₀'.hub.count →
      ∀ p b, EndsAt wait w config.timeoutSeconds p b → w₀'.hub.count ≤ p → w'.hub.oldest ≤ p →
        w'.hub.backlog wait'.receiver p < w'.allowance →
          EndsAt wait' w' config'.timeoutSeconds p b := by
  refine ⟨fun b => exists_endsAt, fun p b => c.endsAt_iff, fun m b own noticed => ?_, ?_⟩
  · have hown := Hub.told_of_told_for own.told_eq
    have hiff : EndsAt wait w config.timeoutSeconds m b ↔ ∀ q, max w₀.hub.count w.hub.oldest ≤ q →
        q < m → w.hub.told (outcomeOf target.project) q = none := by
      rw [c.endsAt_iff]
      exact ⟨fun hends => hends.1.none_before, fun hnone => ⟨⟨own.le, hown, hnone⟩, noticed⟩⟩
    refine ⟨hiff, fun hother => ?_⟩
    rcases w.hub.first_or_none (outcomeOf target.project) (max w₀.hub.count w.hub.oldest) with
      ⟨p, b', first⟩ | hnone
    · have hpm : p < m := by
        by_contra hmp
        exact hother (hiff.mpr fun q hq hqm => first.none_before q hq (by omega))
      -- what comes first is noticed if what comes later is
      refine ⟨p, b', hpm, c.endsAt_iff.mpr ⟨first, ?_⟩, own.none_before p first.le hpm⟩
      rw [Hub.backlog] at noticed ⊢
      omega
    · exact absurd (hnone m own.le) (by rw [hown]; simp)
  · intro config' target' w₀' w' wait' c' project hgrows hstart p b hends hp hkept noticed
    obtain ⟨first, -⟩ := c.endsAt_iff.mp hends
    have hfirst' := hgrows.first first
    have holdest := hgrows.oldest_le
    refine c'.endsAt_iff.mpr ⟨?_, noticed⟩
    rw [project]
    exact hfirst'.later (by omega) (by omega)

end

/-- The release build of the same project. -/
def release : Target :=
  ⟨"app", "Release", "x64"⟩

/-- A world in which nothing has been built. -/
def idle : World OptionTable where
  host := {}

/-- Sessions wait for two builds of one project, and the builds have ended one after the other. -/
def crossed : World OptionTable :=
  let w := afterStart release (afterStart debug idle)
  { w with hub := (w.hub.publish (doneEvent release false)).publish (doneEvent debug true) }

lemma course_debug :
    Course buildingHost { artifactDir := "" } debug idle (waitFrom debug idle) crossed :=
  (Course.start (start_buildingHost debug idle)).later
    ⟨⟨rfl, [_, _], rfl⟩, Nat.le_refl _, Nat.le_refl _⟩

/-- A wait for the debug build ends with the failure of the release build, though the gate tells the
two targets apart, and the debug build has succeeded. -/
theorem debug_endsAt_release : debug.gateKey ≠ release.gateKey ∧
    Course buildingHost { artifactDir := "" } debug idle (waitFrom debug idle) crossed ∧
      ((waitFrom debug idle).look crossed 300).1 = some (.ok false) ∧
      EndsAt (waitFrom debug idle) crossed 300 0 false ∧
      crossed.hub.told (outcomeFor debug) 0 = none ∧
      crossed.hub.First (outcomeFor debug) 0 1 true := by
  refine ⟨by decide, course_debug, by decide +kernel, ⟨by decide +kernel, by decide +kernel⟩,
    by decide +kernel, Nat.zero_le 1, by decide +kernel, fun q _ hq => ?_⟩
  have hzero : q = 0 := by omega
  rw [hzero]
  decide +kernel

/-- So both waits end with the failure of the release build. -/
theorem crossed_end_alike :
    EndsAt (waitFrom debug idle) crossed 300 0 false ∧
      EndsAt (waitFrom release (afterStart debug idle)) crossed 300 0 false := by
  have hdebug : EndsAt (waitFrom debug idle) crossed 300 0 false :=
    ⟨by decide +kernel, by decide +kernel⟩
  have hrelease : Course buildingHost { artifactDir := "" } release (afterStart debug idle)
      (waitFrom release (afterStart debug idle)) crossed :=
    (Course.start (start_buildingHost release _)).later
      ⟨⟨rfl, [_, _], rfl⟩, Nat.le_refl _, Nat.le_refl _⟩
  obtain ⟨-, -, -, halike⟩ := ends_on_done_of_project course_debug
  exact ⟨hdebug, halike { artifactDir := "" } release _ _ _ hrelease rfl (.refl _) (Nat.le_refl _)
    0 false hdebug (Nat.le_refl _) (by decide +kernel) (by decide +kernel)⟩

end Wait

end BuildLens
