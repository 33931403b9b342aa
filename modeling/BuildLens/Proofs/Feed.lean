/-
What a monitor shows and publishes.

With every event a monitor shows the progress of the current build and then hands the event to the
hub.  All that it does can be written as a list of deeds, and this file says which deeds of a run
are of these two kinds (`dispatchAll_fed`): they alternate, and what is shown is what the tracker
knows after the event (`feed`).  A host may give signals of its own while it answers; the list tells
where they stand among the events.

What is shown between two starts of builds is read off the events since the first of them: an error
stays (`reportAfter_state_eq_error_iff`), what is done of a build does not get less and is not more
than all of it (`ratio_le_one`, `ratio_mono`), and nothing is shown of a build that has ended
without an error (`reportAfter_of_ended`).
-/
import Mathlib.Algebra.Order.Field.Rat
import Mathlib.Data.List.Infix
import Mathlib.Tactic.NormNum
import BuildLens.Proofs.Monitor

namespace BuildLens

/-! ## What is shown of a build -/

/-- A share as a number.  The share of nothing is zero. -/
def Share.ratio (s : Share) : ℚ :=
  s.part / s.whole

/-- What is shown of the current build after some events. -/
def reportAfter (es : List BuildEvent) : ProgressReport :=
  (Tracker.idle.run es).report

lemma reportAfter_eq (es : List BuildEvent) :
    reportAfter es = ProgressReport.ofState (Tracker.known es) := by
  rw [reportAfter, Tracker.report, Tracker.run_state]

namespace ProgressReport

variable {s : ProgressState}

lemma ratio_shareOf (s : ProgressState) :
    (shareOf s).ratio = (s.completedProjects : ℚ) / s.totalProjects := by
  rw [shareOf, ProgressState.progress]
  by_cases htotal : s.totalProjects = 0
  · simp [htotal, Share.ratio]
  · simp [htotal, Share.ratio]

lemma state_ofState_eq_error_iff : (ofState s).state = .error ↔ s.hasError = true := by
  rw [ofState]
  by_cases herror : s.hasError = true
  · simp [herror]
  · rw [if_neg herror]
    refine iff_of_false (fun hstate => ?_) herror
    split at hstate
    · cases hstate
    · split at hstate <;> cases hstate

/-- The share of a build that goes on is shown, whether a project has failed or not. -/
lemma value_ofState (hactive : s.active = true) : (ofState s).value = shareOf s := by
  rw [ofState]
  split
  · rfl
  · rw [if_neg (by simp [hactive]), shareOf]
    cases s.progress <;> rfl

end ProgressReport

section

variable {before during earlier : List BuildEvent} {b : BuildEvent}

/-! Between the start `b` of a build and the next one. -/

lemma sinceBegin_started (hb : b.isBegin = true) (hduring : ∀ e ∈ during, e.isBegin = false) :
    sinceBegin (before ++ b :: during) = during := by
  rw [List.append_cons, sinceBegin_append hduring, sinceBegin_concat, if_pos hb, List.nil_append]

lemma lastBegin?_started (hb : b.isBegin = true) (hduring : ∀ e ∈ during, e.isBegin = false) :
    lastBegin? (before ++ b :: during) = some b := by
  rw [List.append_cons, lastBegin?_append hduring, lastBegin?_concat, if_pos hb]

lemma known_started (before : List BuildEvent) (hb : b.isBegin = true)
    (hduring : ∀ e ∈ during, e.isBegin = false) :
    (Tracker.known (before ++ b :: during)).totalProjects = b.plannedProjects ∧
      (Tracker.known (before ++ b :: during)).hasError = during.any BuildEvent.isFailure ∧
      (Tracker.known (before ++ b :: during)).active = !during.any BuildEvent.isDone := by
  rw [Tracker.known, lastBegin?_started hb hduring, sinceBegin_started hb hduring]
  exact ⟨rfl, rfl, rfl⟩

/-- An error is shown from the first failure on. -/
lemma reportAfter_state_eq_error_iff (hb : b.isBegin = true)
    (hduring : ∀ e ∈ during, e.isBegin = false) :
    (reportAfter (before ++ b :: during)).state = .error ↔
      during.any BuildEvent.isFailure = true := by
  obtain ⟨-, herror, -⟩ := known_started before hb hduring
  rw [reportAfter_eq, ProgressReport.state_ofState_eq_error_iff, herror]

/-- Nothing is shown of a build that has ended without an error. -/
lemma reportAfter_of_ended (hb : b.isBegin = true) (hduring : ∀ e ∈ during, e.isBegin = false)
    (hended : during.any BuildEvent.isDone = true)
    (hfine : during.any BuildEvent.isFailure = false) :
    reportAfter (before ++ b :: during) = { state := .none, value := ⟨0, 0⟩ } := by
  obtain ⟨-, herror, hactive⟩ := known_started before hb hduring
  rw [reportAfter_eq, ProgressReport.ofState, herror, hactive, hfine, hended]
  rfl

/-- Until a build ends, its share is shown. -/
lemma ratio_of_active (hb : b.isBegin = true) (hduring : ∀ e ∈ during, e.isBegin = false)
    (hgoing : during.any BuildEvent.isDone = false) :
    (reportAfter (before ++ b :: during)).value.ratio =
      ((Tracker.known (before ++ b :: during)).completedProjects : ℚ) / b.plannedProjects := by
  obtain ⟨htotal, -, hactive⟩ := known_started before hb hduring
  rw [hgoing] at hactive
  rw [reportAfter_eq, ProgressReport.value_ofState hactive, ProgressReport.ratio_shareOf, htotal]

lemma ratio_le_one (hb : b.isBegin = true) (hduring : ∀ e ∈ during, e.isBegin = false)
    (hgoing : during.any BuildEvent.isDone = false) :
    (reportAfter (before ++ b :: during)).value.ratio ≤ 1 := by
  rw [ratio_of_active hb hduring hgoing]
  obtain ⟨htotal, -⟩ := known_started before hb hduring
  rcases Nat.eq_zero_or_pos b.plannedProjects with hzero | hpos
  · simp [hzero]
  · have hbound := Tracker.known_bound (before ++ b :: during) (by rw [htotal]; exact hpos)
    rw [htotal] at hbound
    exact div_le_one_of_le₀ (Nat.cast_le.mpr hbound) (Nat.cast_nonneg _)

/-- What is done of a build does not get less until the build ends. -/
lemma ratio_mono (hb : b.isBegin = true) (hduring : ∀ e ∈ during, e.isBegin = false)
    (hgoing : during.any BuildEvent.isDone = false) (hearlier : earlier <+: during) :
    (reportAfter (before ++ b :: earlier)).value.ratio ≤
      (reportAfter (before ++ b :: during)).value.ratio := by
  obtain ⟨later, rfl⟩ := hearlier
  have hstarted : ∀ e ∈ earlier, e.isBegin = false := fun e he =>
    hduring e (List.mem_append_left _ he)
  have hlater : ∀ e ∈ later, e.isBegin = false := fun e he =>
    hduring e (List.mem_append_right _ he)
  have hgone : earlier.any BuildEvent.isDone = false := by
    rw [List.any_append, Bool.or_eq_false_iff] at hgoing
    exact hgoing.1
  have hgrows := (Tracker.known_grows hlater (before ++ b :: earlier)).1
  rw [List.append_assoc, List.cons_append] at hgrows
  rw [ratio_of_active hb hstarted hgone, ratio_of_active hb hduring hgoing]
  exact div_le_div_of_nonneg_right (Nat.cast_le.mpr hgrows) (Nat.cast_nonneg _)

end

/-! ## Deeds -/

/-- The progress that is shown by a call. -/
def HostCall.progress? : HostCall → Option ProgressReport
  | .showProgress r => some r
  | _ => none

/-- Something that a monitor does. -/
inductive Deed where
  /-- It asks something of the host. -/
  | call (c : HostCall)
  /-- It hands an event to the hub. -/
  | publish (e : BuildEvent)

namespace Deed

variable {σ : Type}

/-- The world after a deed. -/
def perform (h : Host σ) (w : World σ) : Deed → World σ
  | .call c => w.tell h c
  | .publish e => w.signal (.event e)

/-- The progress that is shown. -/
def shown? : Deed → Option ProgressReport
  | .call c => c.progress?
  | .publish _ => none

/-- The event that is published. -/
def published? : Deed → Option BuildEvent
  | .call _ => none
  | .publish e => some e

/-- Whether a deed shows the progress of a build or publishes an event. -/
def isFeed (d : Deed) : Bool :=
  d.shown?.isSome || d.published?.isSome

/-- What is shown and published with some events: after each of them the progress, and then the
event itself.  The events `before` have been followed already. -/
def feed (before : List BuildEvent) : List BuildEvent → List Deed
  | [] => []
  | e :: es =>
    .call (.showProgress (reportAfter (before ++ [e]))) :: .publish e :: feed (before ++ [e]) es

lemma filterMap_shown_feed (before es : List BuildEvent) :
    (feed before es).filterMap shown? =
      es.inits.tail.map fun start => reportAfter (before ++ start) := by
  induction es generalizing before with
  | nil => rfl
  | cons e es ih =>
    have hinits : es.inits = [] :: es.inits.tail := by cases es <;> simp
    rw [List.inits_cons, List.tail_cons, hinits, feed, List.map_cons, List.map_cons, List.map_map]
    simp only [List.filterMap_cons, shown?, ih, List.append_assoc]
    rfl

lemma filterMap_published_feed (before es : List BuildEvent) :
    (feed before es).filterMap published? = es := by
  induction es generalizing before with
  | nil => rfl
  | cons e es ih => simp only [feed, List.filterMap_cons, published?, ih]

/-- The feed contains all that is shown. -/
lemma filterMap_shown_filter (ds : List Deed) :
    (ds.filter isFeed).filterMap shown? = ds.filterMap shown? := by
  rw [List.filterMap_filter]
  refine List.filterMap_congr fun d _ => ?_
  cases hshown : d.shown? with
  | none => exact ite_self none
  | some r => rw [isFeed, hshown]; rfl

/-- The feed contains all that is published. -/
lemma filterMap_published_filter (ds : List Deed) :
    (ds.filter isFeed).filterMap published? = ds.filterMap published? := by
  rw [List.filterMap_filter]
  refine List.filterMap_congr fun d _ => ?_
  cases hpublished : d.published? with
  | none => exact ite_self none
  | some e => rw [isFeed, hpublished, Option.isSome_some, Bool.or_true, if_pos rfl]

end Deed

/-- The progress that was shown in some exchanges. -/
def shown (es : List Exchange) : List ProgressReport :=
  es.filterMap fun e => e.call.progress?

/-- A host that gives no signals while it answers. -/
def Host.Mute {σ : Type} (h : Host σ) : Prop :=
  ∀ c s t, (h.reply c s t).signals = []

namespace World

variable {σ : Type} {h : Host σ} {w w' : World σ}

/-- The world after some deeds. -/
def performAll (h : Host σ) (w : World σ) (ds : List Deed) : World σ :=
  ds.foldl (Deed.perform h) w

lemma performAll_append (h : Host σ) (w : World σ) (ds more : List Deed) :
    w.performAll h (ds ++ more) = (w.performAll h ds).performAll h more :=
  List.foldl_append

/-- What a host is asked is a list of deeds. -/
lemma Asked.performAll {P : HostCall → Prop} {es : List Exchange} (hw : Asked h P w es w') :
    w' = w.performAll h (es.map fun e => .call e.call) := by
  induction hw with
  | refl => rfl
  | ask _ _ ih =>
    rw [List.map_append, performAll_append, ← ih]
    rfl

/-- The progress that was shown is that of the deeds. -/
lemma performAll_shown (h : Host σ) (w : World σ) (ds : List Deed) :
    ∃ es, (w.performAll h ds).log = w.log ++ es ∧ shown es = ds.filterMap Deed.shown? := by
  induction ds generalizing w with
  | nil => exact ⟨[], (List.append_nil _).symm, rfl⟩
  | cons d ds ih =>
    obtain ⟨es, hlog, hshown⟩ := ih (d.perform h w)
    cases d with
    | call c =>
      refine ⟨⟨c, (w.ask h c).1⟩ :: es, ?_, ?_⟩
      · exact hlog.trans (List.append_assoc w.log _ es)
      · rw [shown, List.filterMap_cons, List.filterMap_cons, ← hshown]
        rfl
    | publish e => exact ⟨es, hlog, hshown⟩

/-- If the host gives no signals, then only what is published by deeds gets to the hub. -/
lemma performAll_published (hmute : h.Mute) (w : World σ) (ds : List Deed) :
    (w.performAll h ds).hub.published.reverse =
      w.hub.published.reverse ++ ds.filterMap Deed.published? := by
  induction ds generalizing w with
  | nil => exact (List.append_nil _).symm
  | cons d ds ih =>
    rw [show w.performAll h (d :: ds) = (d.perform h w).performAll h ds from rfl, ih]
    cases d with
    | call c =>
      have hhub : (w.tell h c).hub = w.hub := by
        rw [tell, ask, hmute]
        rfl
      rw [Deed.perform, hhub]
      rfl
    | publish e =>
      rw [Deed.perform, signal, Hub.signal, Hub.publish, List.filterMap_cons]
      simp only [Deed.published?, List.reverse_cons, List.append_assoc, List.singleton_append]

end World

/-! ## What a monitor does with events -/

namespace Monitor

variable {σ : Type} {m : Monitor} {w : World σ}

lemma reportAll_asks (h : Host σ) (ds : List Diagnostic) (w : World σ) :
    World.Asks h (fun c => c.progress? = none) w (reportAll h ds w) := by
  induction ds generalizing w with
  | nil => exact .refl w
  | cons d ds ih =>
    have hfirst : World.Asks h (fun c => c.progress? = none) w (w.tell h (.addDiagnostic d)) :=
      .tell w rfl
    exact hfirst.trans (ih _)

lemma collect_asks (h : Host σ) (m : Monitor) (w : World σ) :
    World.Asks h (fun c => c.progress? = none) w (m.collect h w).2.2 := by
  have hlook : World.Asks h (fun c => c.progress? = none) w (w.ask h .buildOutput).2 :=
    .ask w rfl
  rw [collect]
  rcases hask : w.ask h .buildOutput with ⟨_ | output, w'⟩
  · rw [hask] at hlook
    exact hlook
  · rw [hask] at hlook
    exact hlook.trans (reportAll_asks h _ w')

/-- Announcing an event shows no progress. -/
lemma announce_asks (h : Host σ) (m : Monitor) (e : BuildEvent) (elapsed : Option Span)
    (w : World σ) :
    World.Asks h (fun c => c.progress? = none) w (announce h m e elapsed w).2 := by
  cases e with
  | buildBegin => exact .refl w
  | projectBegin | projectDone => exact .tell w rfl
  | buildDone =>
    exact (tellLength_asks (fun _ => rfl) (fun _ => rfl) h elapsed w).trans (collect_asks h m _)

lemma collect_tracker (h : Host σ) (m : Monitor) (w : World σ) :
    (m.collect h w).2.1.tracker = m.tracker := by
  rw [collect]
  rcases w.ask h .buildOutput with ⟨_ | output, w'⟩ <;> rfl

lemma announce_tracker (h : Host σ) (m : Monitor) (e : BuildEvent) (elapsed : Option Span)
    (w : World σ) : (announce h m e elapsed w).1.tracker = m.tracker := by
  cases e with
  | buildDone => exact collect_tracker h m _
  | _ => rfl

lemma dispatch_tracker (h : Host σ) (m : Monitor) (e : BuildEvent) (w : World σ) :
    (m.dispatch h e w).1.tracker = (m.tracker.apply e).1 :=
  announce_tracker h { m with tracker := (m.tracker.apply e).1 } e _ w

/-- With an event a monitor shows the progress once, and it publishes the event after that. -/
lemma dispatch_fed (h : Host σ) (m : Monitor) (e : BuildEvent) (w : World σ) :
    ∃ ds, (m.dispatch h e w).2 = w.performAll h ds ∧
      ds.filter Deed.isFeed =
        [.call (.showProgress (m.tracker.apply e).1.report), .publish e] := by
  obtain ⟨es, hes⟩ := announce_asks h { m with tracker := (m.tracker.apply e).1 } e
    (m.tracker.apply e).2 w
  refine ⟨es.map (fun x => .call x.call) ++
    [.call (.showProgress (m.tracker.apply e).1.report), .publish e], ?_, ?_⟩
  · have hreport : (announce h { m with tracker := (m.tracker.apply e).1 } e
        (m.tracker.apply e).2 w).1.report = (m.tracker.apply e).1.report :=
      congrArg Tracker.report (announce_tracker h _ e _ w)
    rw [World.performAll_append, ← hes.performAll, ← hreport]
    rfl
  · have hnone : (es.map fun x => Deed.call x.call).filter Deed.isFeed = [] := by
      rw [List.filter_eq_nil_iff]
      intro d hd
      obtain ⟨x, hx, rfl⟩ := List.mem_map.mp hd
      rw [Deed.isFeed, Deed.shown?, hes.mem x hx]
      exact Bool.false_ne_true
    rw [List.filter_append, hnone]
    rfl

/-- What a monitor shows and publishes while it follows some events. -/
theorem dispatchAll_fed (h : Host σ) (es before : List BuildEvent) (m : Monitor) (w : World σ)
    (hm : m.tracker = Tracker.idle.run before) :
    ∃ ds, (m.dispatchAll h es w).2 = w.performAll h ds ∧
      ds.filter Deed.isFeed = Deed.feed before es := by
  induction es generalizing before m w with
  | nil => exact ⟨[], rfl, rfl⟩
  | cons e es ih =>
    obtain ⟨ds, hfirst, hfed⟩ := dispatch_fed h m e w
    have htracker : (m.dispatch h e w).1.tracker = Tracker.idle.run (before ++ [e]) := by
      rw [dispatch_tracker, hm, Tracker.run_concat]
    obtain ⟨more, hrest, hmore⟩ := ih (before ++ [e]) _ (m.dispatch h e w).2 htracker
    refine ⟨ds ++ more, ?_, ?_⟩
    · rw [World.performAll_append, ← hfirst, ← hrest]
      rfl
    · rw [List.filter_append, hfed, hmore, Deed.feed, reportAfter, Tracker.run_concat, ← hm]
      rfl

lemma dispatchAll_tracker (h : Host σ) (es : List BuildEvent) (m : Monitor) (w : World σ) :
    (m.dispatchAll h es w).1.tracker = m.tracker.run es := by
  induction es generalizing m w with
  | nil => rfl
  | cons e es ih =>
    have hrest := ih (m.dispatch h e w).1 (m.dispatch h e w).2
    rw [dispatch_tracker] at hrest
    exact hrest

/-- A new monitor follows some events, and the host may answer as it likes.  Then with every event
the progress is shown exactly once, as the tracker knows it after that event, and after that the
event is handed to the hub; nothing else is shown or published, apart from what the host itself
signals.  Take the reports from the start `b` of a build up to the next one.  They show an error
exactly from the first failure on, also after the build has ended.  Until it ends they show which
part of the projects is finished: never more than all of them, and never less than before.  And
when it has ended they show nothing, unless a project has failed. -/
theorem progress_fed (h : Host σ) (f : RemarkFamily) (es : List BuildEvent) (w₀ : World σ) :
    let m := (dispatchAll h { family := f } es w₀).1
    let w := (dispatchAll h { family := f } es w₀).2
    (m.report = reportAfter es ∧
      (∃ ds, w = w₀.performAll h ds ∧ ds.filter Deed.isFeed = Deed.feed [] es) ∧
      shown (w₀.callsSince w) = es.inits.tail.map reportAfter ∧
      (h.Mute → w.hub.published.reverse = w₀.hub.published.reverse ++ es)) ∧
    ∀ before b during, before ++ b :: during <+: es → b.isBegin = true →
      (∀ e ∈ during, e.isBegin = false) →
      let s := (Tracker.idle.run (before ++ b :: during)).state
      let r := reportAfter (before ++ b :: during)
      (r.state = .error ↔ during.any BuildEvent.isFailure = true) ∧
      (during.any BuildEvent.isDone = false →
        r.value.ratio = (s.completedProjects : ℚ) / s.totalProjects ∧ r.value.ratio ≤ 1 ∧
          ∀ earlier, earlier <+: during →
            (reportAfter (before ++ b :: earlier)).value.ratio ≤ r.value.ratio) ∧
      (during.any BuildEvent.isDone = true → during.any BuildEvent.isFailure = false →
        r = { state := .none, value := ⟨0, 0⟩ }) := by
  intro m w
  obtain ⟨ds, hds, hfed⟩ := dispatchAll_fed h es [] { family := f } w₀ rfl
  refine ⟨⟨?_, ⟨ds, hds, hfed⟩, ?_, fun hmute => ?_⟩, ?_⟩
  · exact congrArg Tracker.report (dispatchAll_tracker h es { family := f } w₀)
  · obtain ⟨calls, hlog, hshown⟩ := World.performAll_shown h w₀ ds
    rw [show w = w₀.performAll h ds from hds, World.callsSince_of_log hlog, hshown,
      ← Deed.filterMap_shown_filter, hfed, Deed.filterMap_shown_feed]
    simp only [List.nil_append]
  · rw [show w = w₀.performAll h ds from hds, World.performAll_published hmute,
      ← Deed.filterMap_published_filter, hfed, Deed.filterMap_published_feed]
  · intro before b during _ hb hduring s r
    refine ⟨reportAfter_state_eq_error_iff hb hduring, fun hgoing => ?_,
      reportAfter_of_ended hb hduring⟩
    refine ⟨?_, ratio_le_one hb hduring hgoing, fun earlier => ratio_mono hb hduring hgoing⟩
    have hs : s = Tracker.known (before ++ b :: during) := Tracker.run_state _
    rw [hs, (known_started _ hb hduring).1]
    exact ratio_of_active hb hduring hgoing

/-- A build of two projects, the second of which fails. -/
def brokenBuild : List BuildEvent :=
  let now := Instant.ofClock 0 0
  [.buildBegin .solution .build [⟨"a", true⟩, ⟨"b", true⟩] now,
    .projectDone "a" "" "" "" true now, .projectDone "b" "" "" "" false now,
    .buildDone .solution .build now]

/-- A host that only builds projects. -/
def plainHost : Host OptionTable :=
  OptionTable.host (OptionTable.document ⟨"a", "Debug", "x64"⟩) fun _ o => (.ok (), o)

lemma plainHost_mute : plainHost.Mute := by
  intro c s t
  cases c with
  | writeOptions file target o =>
    simp only [plainHost, OptionTable.host]
  | _ => rfl

theorem progress_fed_of_brokenBuild :
    let w₀ : World OptionTable := { host := {} }
    let w := (dispatchAll plainHost {} brokenBuild w₀).2
    shown (w₀.callsSince w) =
        [⟨.normal, ⟨0, 2⟩⟩, ⟨.normal, ⟨1, 2⟩⟩, ⟨.error, ⟨2, 2⟩⟩, ⟨.error, ⟨2, 2⟩⟩] ∧
      w.hub.published.reverse = brokenBuild ∧
      (reportAfter brokenBuild).state = .error := by
  intro w₀ w
  obtain ⟨⟨-, -, hshown, hpublished⟩, hreports⟩ :=
    progress_fed plainHost .loopNotVectorized brokenBuild w₀
  refine ⟨hshown.trans ?_, hpublished plainHost_mute, ?_⟩
  · decide
  · exact (hreports [] _ _ (List.prefix_refl brokenBuild) rfl (by decide)).1.mpr rfl

end Monitor

end BuildLens
