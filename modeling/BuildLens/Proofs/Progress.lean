/-
The progress of a build, read off the events.

What a tracker knows is a function of the events that it was told, and this file says which one.
Two parts of a history matter: the last event that started a build, and the events since then
(`lastBegin?`, `sinceBegin`).  The first one gives the number of projects; the others are counted
(`run_state`).  So between two starts the number of finished projects only grows, up to the number
of all projects if that is known, and an error stays.

The time that a build has taken is told by the end of a build of the solution only, and only if
such a build has started since the last such end (`mem_sinceSolutionDone_of_startedAt`).  When it
has started is forgotten as soon as any other build starts, so such a build can cost the solution
its time; `elapsed_insert_iff` says when.
-/
import Mathlib.Data.List.DropRight
import Mathlib.Data.List.Induction
import Mathlib.Tactic.Common
import BuildLens.Progress.Tracker

namespace BuildLens

/-! ## Histories -/

namespace BuildEvent

/-- Whether a build starts. -/
def isBegin : BuildEvent → Bool
  | .buildBegin .. => true
  | _ => false

/-- Whether a build of the whole solution starts. -/
def isSolutionBegin : BuildEvent → Bool
  | .buildBegin scope .. => scope = .solution
  | _ => false

/-- Whether a build ends. -/
def isDone : BuildEvent → Bool
  | .buildDone .. => true
  | _ => false

/-- Whether a build of the whole solution ends. -/
def isSolutionDone : BuildEvent → Bool
  | .buildDone scope .. => scope = .solution
  | _ => false

/-- Whether the build of a project ends. -/
def isProjectDone : BuildEvent → Bool
  | .projectDone .. => true
  | _ => false

/-- Whether the build of a project ends without success. -/
def isFailure : BuildEvent → Bool
  | .projectDone _ _ _ _ success _ => !success
  | _ => false

/-- The number of projects that a build comprises which starts. -/
def plannedProjects : BuildEvent → Nat
  | .buildBegin _ _ contexts _ => contexts.countP PlannedProject.shouldBuild
  | _ => 0

/-- When a build of the whole solution has started. -/
def timedStart? : BuildEvent → Option Instant
  | .buildBegin scope _ _ time => if scope = .solution then some time else none
  | _ => none

end BuildEvent

/-- The last event that started a build. -/
def lastBegin? (es : List BuildEvent) : Option BuildEvent :=
  es.reverse.find? BuildEvent.isBegin

/-- The events since a build has started last; all of them if none has. -/
def sinceBegin (es : List BuildEvent) : List BuildEvent :=
  es.rtakeWhile fun e => !e.isBegin

/-- The events since a build of the whole solution has ended last; all of them if none has. -/
def sinceSolutionDone (es : List BuildEvent) : List BuildEvent :=
  es.rtakeWhile fun e => !e.isSolutionDone

section

variable {e : BuildEvent}

lemma lastBegin?_concat (es : List BuildEvent) (e : BuildEvent) :
    lastBegin? (es ++ [e]) = if e.isBegin then some e else lastBegin? es := by
  rw [lastBegin?, List.reverse_append, List.reverse_singleton, List.singleton_append,
    List.find?_cons]
  cases e.isBegin <;> rfl

lemma sinceBegin_concat (es : List BuildEvent) (e : BuildEvent) :
    sinceBegin (es ++ [e]) = if e.isBegin then [] else sinceBegin es ++ [e] := by
  rw [sinceBegin, List.rtakeWhile_concat]
  cases e.isBegin <;> rfl

lemma sinceSolutionDone_concat (es : List BuildEvent) (e : BuildEvent) :
    sinceSolutionDone (es ++ [e]) =
      if e.isSolutionDone then [] else sinceSolutionDone es ++ [e] := by
  rw [sinceSolutionDone, List.rtakeWhile_concat]
  cases e.isSolutionDone <;> rfl

/-- As long as no build starts, the last start stays the last one. -/
lemma lastBegin?_append {more : List BuildEvent} (hmore : ∀ e ∈ more, e.isBegin = false)
    (es : List BuildEvent) : lastBegin? (es ++ more) = lastBegin? es := by
  induction more using List.reverseRecOn with
  | nil => rw [List.append_nil]
  | append_singleton more e ih =>
    rw [← List.append_assoc, lastBegin?_concat, if_neg (by simp [hmore e (by simp)])]
    exact ih fun x hx => hmore x (List.mem_append_left _ hx)

lemma sinceBegin_append {more : List BuildEvent} (hmore : ∀ e ∈ more, e.isBegin = false)
    (es : List BuildEvent) : sinceBegin (es ++ more) = sinceBegin es ++ more := by
  induction more using List.reverseRecOn with
  | nil => rw [List.append_nil, List.append_nil]
  | append_singleton more e ih =>
    rw [← List.append_assoc, sinceBegin_concat, if_neg (by simp [hmore e (by simp)]),
      ih fun x hx => hmore x (List.mem_append_left _ hx), List.append_assoc]

end

/-! ## What a tracker knows -/

namespace Tracker

lemma run_concat (t : Tracker) (es : List BuildEvent) (e : BuildEvent) :
    t.run (es ++ [e]) = ((t.run es).apply e).1 := by
  simp [run]

/-- The end of a build stops it, and one of the whole solution uses up the start. -/
lemma buildDone_state (t : Tracker) (scope : BuildScope) (time : Instant) :
    (t.buildDone scope time).1.state =
      { t.state with
        active := false
        startedAt := if scope = .solution then none else t.state.startedAt } := by
  rw [buildDone]
  by_cases hscope : scope = .solution
  · simp only [hscope, if_true]
    cases hstart : t.state.startedAt with
    | none => simp [← hstart]
    | some start => rfl
  · simp only [hscope, if_false]

/-- The end of a build tells how long it took if it was one of the whole solution and its start
was seen. -/
lemma buildDone_elapsed (t : Tracker) (scope : BuildScope) (time : Instant) :
    (t.buildDone scope time).2 = if scope = .solution then
      t.state.startedAt.map fun start => Span.clamped ⟨time.nanosSince start⟩ else none := by
  rw [buildDone]
  by_cases hscope : scope = .solution
  · simp only [hscope, if_true]
    cases t.state.startedAt <;> rfl
  · simp only [hscope, if_false]

/-- The tracker remembers what was told last. -/
lemma apply_lastElapsed (t : Tracker) (e : BuildEvent) :
    (t.apply e).1.lastElapsed = (t.apply e).2.or t.lastElapsed := by
  cases e with
  | buildDone scope action time =>
    rw [apply, buildDone]
    by_cases hscope : scope = .solution
    · simp only [hscope, if_true]
      cases t.state.startedAt <;> rfl
    · simp [hscope]
  | _ => rfl

/-- What is known of the current build after some events. -/
def known (es : List BuildEvent) : ProgressState :=
  let total := (lastBegin? es).elim 0 BuildEvent.plannedProjects
  let ended := (sinceBegin es).countP BuildEvent.isProjectDone
  { totalProjects := total
    completedProjects := if total = 0 then ended else min total ended
    hasError := (sinceBegin es).any BuildEvent.isFailure
    startedAt := if (sinceBegin es).any BuildEvent.isSolutionDone then none
      else (lastBegin? es).bind BuildEvent.timedStart?
    active := (lastBegin? es).isSome && !(sinceBegin es).any BuildEvent.isDone }

/-- A tracker that knows what some events tell knows what they and a further one tell after that
one. -/
lemma state_apply {t : Tracker} {es : List BuildEvent} (ht : t.state = known es)
    (e : BuildEvent) : (t.apply e).1.state = known (es ++ [e]) := by
  rw [known, lastBegin?_concat, sinceBegin_concat]
  cases e with
  | buildBegin scope action contexts time =>
    simp [apply, buildBegin, BuildEvent.isBegin, BuildEvent.plannedProjects,
      BuildEvent.timedStart?]
  | projectBegin =>
    simp [apply, ht, known, BuildEvent.isBegin, BuildEvent.isProjectDone, BuildEvent.isFailure,
      BuildEvent.isSolutionDone, BuildEvent.isDone]
  | projectDone project config platform solution success time =>
    simp only [apply, projectDone, ht, known, BuildEvent.isBegin, Bool.false_eq_true, if_false,
      List.countP_append, List.any_append, List.countP_singleton, List.any_cons, List.any_nil,
      BuildEvent.isProjectDone, BuildEvent.isFailure, BuildEvent.isSolutionDone,
      BuildEvent.isDone, Bool.or_false, if_true, ProgressState.mk.injEq, true_and, and_true]
    -- what is left is the number of finished projects, which stops at that of all projects
    generalize (lastBegin? es).elim 0 BuildEvent.plannedProjects = total
    generalize (sinceBegin es).countP BuildEvent.isProjectDone = ended
    split <;> split <;> omega
  | buildDone scope action time =>
    simp only [apply, buildDone_state, ht, known, BuildEvent.isBegin, Bool.false_eq_true,
      if_false, List.countP_append, List.any_append, List.countP_singleton, List.any_cons,
      List.any_nil, BuildEvent.isProjectDone, BuildEvent.isFailure, BuildEvent.isSolutionDone,
      BuildEvent.isDone, Bool.or_false, Nat.add_zero, Bool.or_true, Bool.not_true,
      Bool.and_false]
    by_cases hscope : scope = .solution <;> simp [hscope]

/-- What a new tracker knows after some events. -/
theorem run_state (es : List BuildEvent) : (idle.run es).state = known es := by
  induction es using List.reverseRecOn with
  | nil => rfl
  | append_singleton es e ih => rw [run_concat, state_apply ih]

/-- The number of finished projects does not exceed that of all projects, if that is known. -/
lemma known_bound (es : List BuildEvent) (htotal : 0 < (known es).totalProjects) :
    (known es).completedProjects ≤ (known es).totalProjects := by
  rw [known] at htotal ⊢
  dsimp only at htotal ⊢
  rw [if_neg (by omega)]
  exact Nat.min_le_left _ _

/-- As long as no build starts, projects stay finished and an error stays. -/
lemma known_grows {more : List BuildEvent} (hmore : ∀ e ∈ more, e.isBegin = false)
    (es : List BuildEvent) :
    (known es).completedProjects ≤ (known (es ++ more)).completedProjects ∧
      ((known es).hasError = true → (known (es ++ more)).hasError = true) := by
  rw [known, known, lastBegin?_append hmore, sinceBegin_append hmore, List.countP_append]
  dsimp only
  constructor
  · generalize (lastBegin? es).elim 0 BuildEvent.plannedProjects = total
    split <;> omega
  · intro herror
    rw [List.any_append, herror, Bool.true_or]

/-! ## How long builds took -/

/-- The times that are told while a tracker follows some events. -/
def elapsedTimes (t : Tracker) : List BuildEvent → List Span
  | [] => []
  | e :: es => (t.apply e).2.toList ++ (t.apply e).1.elapsedTimes es

lemma elapsedTimes_concat (t : Tracker) (es : List BuildEvent) (e : BuildEvent) :
    t.elapsedTimes (es ++ [e]) = t.elapsedTimes es ++ ((t.run es).apply e).2.toList := by
  induction es generalizing t with
  | nil => simp [elapsedTimes, run]
  | cons x es ih =>
    rw [List.cons_append, elapsedTimes, elapsedTimes, ih, List.append_assoc]
    rfl

/-- A tracker remembers the time that it told last. -/
theorem run_lastElapsed (es : List BuildEvent) :
    (idle.run es).lastElapsed = (idle.elapsedTimes es).getLast? := by
  induction es using List.reverseRecOn with
  | nil => rfl
  | append_singleton es e ih =>
    rw [run_concat, apply_lastElapsed, elapsedTimes_concat, List.getLast?_append, ih]
    cases ((idle.run es).apply e).2 <;> rfl

/-- If the start of a timed build is known, then it came after the last end of such a build. -/
lemma mem_sinceSolutionDone_of_startedAt {es : List BuildEvent}
    (hstart : (idle.run es).state.startedAt.isSome = true) :
    ∃ b ∈ sinceSolutionDone es, b.isSolutionBegin = true := by
  induction es using List.reverseRecOn with
  | nil => exact absurd hstart (by simp [run, idle])
  | append_singleton es e ih =>
    rw [run_concat] at hstart
    rw [sinceSolutionDone_concat]
    cases e with
    | buildBegin scope action contexts time =>
      by_cases hscope : scope = .solution
      · exact ⟨.buildBegin scope action contexts time, by simp [BuildEvent.isSolutionDone],
          by simp [BuildEvent.isSolutionBegin, hscope]⟩
      · simp [apply, buildBegin, hscope] at hstart
    | projectBegin | projectDone =>
      obtain ⟨b, hb, hbegin⟩ := ih hstart
      exact ⟨b, List.mem_append_left _ hb, hbegin⟩
    | buildDone scope action time =>
      rw [apply, buildDone_state] at hstart
      by_cases hscope : scope = .solution
      · simp [hscope] at hstart
      · obtain ⟨b, hb, hbegin⟩ := ih (by simpa [hscope] using hstart)
        exact ⟨b, by simpa [BuildEvent.isSolutionDone, hscope] using .inl hb, hbegin⟩

lemma nanos_clamped_nonneg (s : Span) : 0 ≤ s.clamped.nanos :=
  Int.le_max_right s.nanos 0

/-- A time is told only at the end of a build of the solution, and only if the start of such a
build is known. -/
lemma of_apply_eq_some {t : Tracker} {e : BuildEvent} {elapsed : Span}
    (h : (t.apply e).2 = some elapsed) :
    e.isSolutionDone = true ∧ t.state.startedAt.isSome = true ∧ 0 ≤ elapsed.nanos := by
  cases e with
  | buildDone scope action time =>
    rw [apply, buildDone_elapsed] at h
    split at h
    next hscope =>
      obtain ⟨start, hstart, rfl⟩ := Option.map_eq_some_iff.mp h
      exact ⟨by simp [BuildEvent.isSolutionDone, hscope], by simp [hstart],
        nanos_clamped_nonneg _⟩
    next => simp at h
  | _ => simp [apply] at h

/-- What a new tracker knows after some events is told by the last event that started a build and
by the events since then: the number of projects is that of the plan, and nothing is known of it
if no build has started; the finished projects are counted, up to that number if it is known; an
error is a project that has failed, and the build goes on until an end of a build.  So the finished
projects do not exceed a known number of projects, and until a build starts they do not get fewer
and an error does not go away.  A time is told only by an end of a build of the solution, if such a
build has started since the last such end; it is not negative; and the last one told is kept. -/
theorem progress_of_history (es : List BuildEvent) :
    ((idle.run es).state.totalProjects =
        (lastBegin? es).elim 0 BuildEvent.plannedProjects ∧
      (idle.run es).state.completedProjects =
        (if (idle.run es).state.totalProjects = 0 then
          (sinceBegin es).countP BuildEvent.isProjectDone
        else min (idle.run es).state.totalProjects
          ((sinceBegin es).countP BuildEvent.isProjectDone)) ∧
      (idle.run es).state.hasError = (sinceBegin es).any BuildEvent.isFailure ∧
      (idle.run es).state.active =
        ((lastBegin? es).isSome && !(sinceBegin es).any BuildEvent.isDone)) ∧
    (0 < (idle.run es).state.totalProjects →
      (idle.run es).state.completedProjects ≤ (idle.run es).state.totalProjects) ∧
    (∀ more : List BuildEvent, (∀ e ∈ more, e.isBegin = false) →
      (idle.run es).state.completedProjects ≤ (idle.run (es ++ more)).state.completedProjects ∧
      ((idle.run es).state.hasError = true →
        (idle.run (es ++ more)).state.hasError = true)) ∧
    (∀ e elapsed, ((idle.run es).apply e).2 = some elapsed →
      e.isSolutionDone = true ∧ (∃ b ∈ sinceSolutionDone es, b.isSolutionBegin = true) ∧
        0 ≤ elapsed.nanos) ∧
    (idle.run es).lastElapsed = (idle.elapsedTimes es).getLast? := by
  rw [run_state]
  refine ⟨⟨rfl, rfl, rfl, rfl⟩, known_bound es, fun more hmore => ?_, fun e elapsed h => ?_,
    run_lastElapsed es⟩
  · rw [run_state]
    exact known_grows hmore es
  · obtain ⟨hdone, hstart, hnanos⟩ := of_apply_eq_some h
    exact ⟨hdone, mem_sinceSolutionDone_of_startedAt hstart, hnanos⟩

end Tracker

/-! ## Builds that start during a build of the solution -/

namespace BuildEvent

/-- Whether a build starts that is not one of the whole solution. -/
def isUntimedBegin (e : BuildEvent) : Bool :=
  e.isBegin && !e.isSolutionBegin

/-- Whether a tracker that is told the event forgets when the build of the solution has started. -/
def resetsClock (e : BuildEvent) : Bool :=
  e.isBegin || e.isSolutionDone

end BuildEvent

/-- The last build that has started is one of the whole solution, and it has not ended. -/
def isTiming (es : List BuildEvent) : Bool :=
  (lastBegin? es).any BuildEvent.isSolutionBegin && !(sinceBegin es).any BuildEvent.isSolutionDone

namespace Tracker

lemma run_append (t : Tracker) (es fs : List BuildEvent) : t.run (es ++ fs) = (t.run es).run fs :=
  List.foldl_append

/-- What a tracker is told decides by itself when the build of the solution has started, or it
leaves that as it was. -/
lemma apply_startedAt (t : Tracker) (e : BuildEvent) :
    (t.apply e).1.state.startedAt =
      if e.resetsClock then e.timedStart? else t.state.startedAt := by
  cases e with
  | buildDone scope action time =>
    rw [apply, buildDone_state]
    by_cases hscope : scope = .solution <;>
      simp [hscope, BuildEvent.resetsClock, BuildEvent.isBegin, BuildEvent.isSolutionDone,
        BuildEvent.timedStart?]
  | _ => rfl

/-- After an event that resets the clock it does not matter any more what was known before. -/
lemma run_startedAt (t : Tracker) (es : List BuildEvent) :
    (t.run es).state.startedAt =
      if es.any BuildEvent.resetsClock then (idle.run es).state.startedAt
      else t.state.startedAt := by
  induction es using List.reverseRecOn with
  | nil => rfl
  | append_singleton es e ih =>
    rw [run_concat, run_concat, apply_startedAt, apply_startedAt, ih, List.any_append,
      List.any_cons, List.any_nil, Bool.or_false]
    cases e.resetsClock <;> cases es.any BuildEvent.resetsClock <;> rfl

/-- All that a tracker needs to tell a time is when the build of the solution has started. -/
lemma exists_elapsed {d : BuildEvent} (hd : d.isSolutionDone = true) :
    ∃ time : Instant, ∀ t : Tracker, (t.apply d).2 =
      t.state.startedAt.map fun start => Span.clamped ⟨time.nanosSince start⟩ := by
  cases d with
  | buildDone scope action time =>
    have hscope : scope = .solution := by simpa [BuildEvent.isSolutionDone] using hd
    refine ⟨time, fun t => ?_⟩
    rw [apply, buildDone_elapsed, if_pos hscope]
  | _ => exact absurd hd (by simp [BuildEvent.isSolutionDone])

lemma isSome_startedAt (es : List BuildEvent) :
    (idle.run es).state.startedAt.isSome = isTiming es := by
  have hstart : ∀ b : BuildEvent, b.timedStart?.isSome = b.isSolutionBegin := by
    intro b
    cases b with
    | buildBegin scope action contexts time =>
      by_cases hscope : scope = .solution <;>
        simp [hscope, BuildEvent.timedStart?, BuildEvent.isSolutionBegin]
    | _ => rfl
  rw [run_state, known, isTiming]
  dsimp only
  cases (sinceBegin es).any BuildEvent.isSolutionDone with
  | true => simp
  | false => cases lastBegin? es <;> simp [hstart]

/-- A build that is not one of the whole solution, started between two parts of a history.  An end
of a build of the solution behind it tells the same as without it, just if no build of the solution
was going on when it started, or if another build has started or such a build has ended in between.
Otherwise the end tells no time, and without it, it would tell one. -/
theorem elapsed_insert_iff {b d : BuildEvent} (hb : b.isUntimedBegin = true)
    (hd : d.isSolutionDone = true) (front between : List BuildEvent) :
    (((idle.run (front ++ b :: between)).apply d).2 =
        ((idle.run (front ++ between)).apply d).2 ↔
      isTiming front = false ∨ ∃ e ∈ between, e.resetsClock = true) ∧
    (isTiming front = true → (∀ e ∈ between, e.resetsClock = false) →
      ((idle.run (front ++ b :: between)).apply d).2 = none ∧
        ((idle.run (front ++ between)).apply d).2.isSome = true) := by
  obtain ⟨hbegin, huntimed⟩ : b.isBegin = true ∧ b.isSolutionBegin = false := by
    simpa [BuildEvent.isUntimedBegin] using hb
  have hnone : b.timedStart? = none := by
    cases b with
    | buildBegin scope action contexts time =>
      exact if_neg (by simpa [BuildEvent.isSolutionBegin] using huntimed)
    | _ => rfl
  obtain ⟨time, htold⟩ := exists_elapsed hd
  have hwith : (idle.run (front ++ b :: between)).state.startedAt =
      if between.any BuildEvent.resetsClock then (idle.run between).state.startedAt
      else none := by
    rw [List.append_cons, run_append, run_startedAt, run_concat, apply_startedAt, hnone,
      BuildEvent.resetsClock, hbegin, Bool.true_or, if_pos rfl]
  have hwithout : (idle.run (front ++ between)).state.startedAt =
      if between.any BuildEvent.resetsClock then (idle.run between).state.startedAt
      else (idle.run front).state.startedAt := by
    rw [run_append, run_startedAt]
  rw [htold, htold, hwith, hwithout, ← isSome_startedAt]
  cases hreset : between.any BuildEvent.resetsClock with
  | true =>
    obtain ⟨e, he, hclock⟩ := List.any_eq_true.mp hreset
    refine ⟨iff_of_true rfl (.inr ⟨e, he, hclock⟩), fun _ hall => ?_⟩
    rw [hall e he] at hclock
    contradiction
  | false =>
    have hall : ∀ e ∈ between, e.resetsClock = false := by simpa using hreset
    cases hstart : (idle.run front).state.startedAt with
    | none => simp
    | some start => simpa using hall

/-- A build of the solution with one project, as far as its middle. -/
def solutionBuild : List BuildEvent :=
  [.buildBegin .solution .build [⟨"app", true⟩] (.ofClock 0 0)]

/-- A build of a project on its own, which a session has started meanwhile. -/
def sessionBuild : List BuildEvent :=
  [.projectDone "app" "" "" "" true (.ofClock 15 0), .buildDone .project .build (.ofClock 20 0)]

theorem elapsed_insert_iff_of_sessionBuild :
    let b := BuildEvent.buildBegin .project .build [⟨"app", true⟩] (.ofClock 10 0)
    let d := BuildEvent.solutionDone (.ofClock 75 0)
    b.isUntimedBegin = true ∧ d.isSolutionDone = true ∧
      ((idle.run (solutionBuild ++ b :: sessionBuild)).apply d).2 = none ∧
      ((idle.run (solutionBuild ++ sessionBuild)).apply d).2.isSome = true := by
  intro b d
  have hlost := (elapsed_insert_iff (b := b) (d := d) rfl rfl solutionBuild sessionBuild).2
  exact ⟨rfl, rfl, hlost (by decide) (by decide)⟩

/-- The solution takes 75 seconds to build, but if a project is built meanwhile, nobody is told. -/
theorem elapsed_lost :
    ((idle.run (solutionBuild ++ sessionBuild)).apply (.solutionDone (.ofClock 75 0))).2 =
        some ⟨75000000000⟩ ∧
      ((idle.run (solutionBuild ++ .buildBegin .project .build [⟨"app", true⟩] (.ofClock 10 0) ::
        sessionBuild)).apply (.solutionDone (.ofClock 75 0))).2 = none := by
  decide

end Tracker

end BuildLens
