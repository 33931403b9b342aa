/-
What a monitor reports.

A monitor looks at the output of the builds at the end of every build, and whenever it is told to.
The output may change in any way from one look to the next, and a look may fail.  `Found` says what
comes out of the exchanges with the host: whatever is reported is added to the list of tasks, and
these are the first sightings among all that the outputs contain which were read, apart from what
was listed before.  It holds of a single look (`collect_found`), of an event that is followed
(`dispatch_found`), and, since one such account continues another (`Found.trans`), of all that a
monitor does (`performAll_found`).
-/
import Mathlib.Tactic.Common
import BuildLens.Monitor
import BuildLens.Proofs.Asking
import BuildLens.Proofs.Progress
import BuildLens.Proofs.Remark.Sightings

namespace BuildLens

/-! ## Outputs and reports in a conversation -/

namespace HostCall

/-- Whether a call looks at what the builds have printed. -/
def isLook : HostCall → Bool
  | .buildOutput => true
  | _ => false

/-- Whether a call looks at what the builds have printed, or reports a diagnostic. -/
def isFinding : HostCall → Bool
  | .buildOutput => true
  | .addDiagnostic _ => true
  | _ => false

end HostCall

namespace Exchange

/-- The output of the builds, if the exchange is a look at it that has not failed. -/
def output? : Exchange → Option String
  | ⟨.buildOutput, answer⟩ => answer.toOption
  | _ => none

/-- The diagnostic that is reported. -/
def reported? : Exchange → Option Diagnostic
  | ⟨.addDiagnostic d, _⟩ => some d
  | _ => none

/-- The report of a diagnostic. -/
def report (d : Diagnostic) : Exchange :=
  ⟨.addDiagnostic d, ()⟩

variable {e : Exchange}

/-- Only a look reads the output. -/
lemma output?_of_no_look (h : e.call.isLook = false) : e.output? = none := by
  obtain ⟨c, a⟩ := e
  cases c <;> simp_all [output?, HostCall.isLook]

lemma reported?_of_chat (h : e.call.isFinding = false) : e.reported? = none := by
  obtain ⟨c, a⟩ := e
  cases c <;> simp_all [reported?, HostCall.isFinding]

lemma isLook_of_chat (h : e.call.isFinding = false) : e.call.isLook = false := by
  obtain ⟨c, a⟩ := e
  cases c <;> simp_all [HostCall.isLook, HostCall.isFinding]

end Exchange

/-- The outputs that were read in some exchanges. -/
def outputsRead (es : List Exchange) : List String :=
  es.filterMap Exchange.output?

/-- The diagnostics that were reported in some exchanges. -/
def reported (es : List Exchange) : List Diagnostic :=
  es.filterMap Exchange.reported?

/-- The number of looks at the output of the builds. -/
def looks (es : List Exchange) : Nat :=
  es.countP fun e => e.call.isLook

/-- All that the outputs contain which were read. -/
def contained (f : RemarkFamily) (es : List Exchange) : List Diagnostic :=
  (outputsRead es).flatMap fun text => Remark.extract f text.toList

section

variable {es fs : List Exchange}

lemma outputsRead_append (es fs : List Exchange) :
    outputsRead (es ++ fs) = outputsRead es ++ outputsRead fs :=
  List.filterMap_append ..

lemma reported_append (es fs : List Exchange) :
    reported (es ++ fs) = reported es ++ reported fs :=
  List.filterMap_append ..

lemma looks_append (es fs : List Exchange) : looks (es ++ fs) = looks es + looks fs :=
  List.countP_append ..

lemma contained_append (f : RemarkFamily) (es fs : List Exchange) :
    contained f (es ++ fs) = contained f es ++ contained f fs := by
  rw [contained, outputsRead_append, List.flatMap_append]
  rfl

lemma outputsRead_of_chat (h : ∀ e ∈ es, e.call.isFinding = false) : outputsRead es = [] :=
  List.filterMap_eq_nil_iff.mpr fun e he =>
    Exchange.output?_of_no_look (Exchange.isLook_of_chat (h e he))

lemma reported_of_chat (h : ∀ e ∈ es, e.call.isFinding = false) : reported es = [] :=
  List.filterMap_eq_nil_iff.mpr fun e he => Exchange.reported?_of_chat (h e he)

lemma looks_of_chat (h : ∀ e ∈ es, e.call.isFinding = false) : looks es = 0 :=
  List.countP_eq_zero.mpr fun e he => by simp [Exchange.isLook_of_chat (h e he)]

lemma reported_reports (ds : List Diagnostic) : reported (ds.map Exchange.report) = ds := by
  rw [reported, List.filterMap_map]
  exact List.filterMap_some

lemma outputsRead_reports (ds : List Diagnostic) : outputsRead (ds.map Exchange.report) = [] := by
  rw [outputsRead, List.filterMap_map]
  exact List.filterMap_eq_nil_iff.mpr fun _ _ => rfl

lemma looks_reports (ds : List Diagnostic) : looks (ds.map Exchange.report) = 0 := by
  rw [looks, List.countP_map]
  exact List.countP_eq_zero.mpr fun _ _ => Bool.false_ne_true

end

namespace Monitor

variable {σ : Type} {h : Host σ} {m m' m'' : Monitor} {w w' w'' : World σ}
  {es fs : List Exchange}

/-! ## The account of some exchanges -/

/-- What comes out of some exchanges for a monitor. -/
structure Found (m m' : Monitor) (es : List Exchange) : Prop where
  family : m'.family = m.family
  items : m'.tasks.items = m.tasks.items ++ reported es
  fresh : reported es = firstSightings (unseen m.tasks.items (contained m.family es))

namespace Found

/-- Nothing comes out of exchanges about other things. -/
lemma of_chat (chat : ∀ e ∈ es, e.call.isFinding = false) (family : m'.family = m.family)
    (tasks : m'.tasks = m.tasks) : Found m m' es := by
  refine ⟨family, ?_, ?_⟩
  · rw [tasks, reported_of_chat chat, List.append_nil]
  · rw [reported_of_chat chat, contained, outputsRead_of_chat chat]
    rfl

lemma trans (first : Found m m' es) (second : Found m' m'' fs) : Found m m'' (es ++ fs) := by
  refine ⟨second.family.trans first.family, ?_, ?_⟩
  · rw [second.items, first.items, reported_append, List.append_assoc]
  · -- what is listed after the first exchanges is what was listed and what they contained
    have hseen : unseen m'.tasks.items (contained m.family fs) =
        unseen (unseen m.tasks.items (contained m.family es))
          (unseen m.tasks.items (contained m.family fs)) := by
      rw [first.items, ← unseen_unseen, first.fresh, unseen_firstSightings]
    rw [reported_append, second.fresh, first.family, hseen, first.fresh, contained_append,
      unseen_append, firstSightings_append]

/-- An account in which no output was read. -/
lemma tasks_eq (found : Found m m' es) (none : outputsRead es = []) :
    reported es = [] ∧ m'.tasks = m.tasks := by
  have hnil : reported es = [] := by
    rw [found.fresh, contained, none]
    rfl
  have hitems := found.items
  rw [hnil, List.append_nil] at hitems
  exact ⟨hnil, congrArg TaskList.mk hitems⟩

/-- An account of a monitor that had listed nothing. -/
lemma of_new {f : RemarkFamily} (found : Found { family := f } m es) :
    reported es = m.tasks.items ∧ m.tasks.items = firstSightings (contained f es) := by
  have hitems := found.items
  have hfresh := found.fresh
  rw [unseen_of_nil] at hfresh
  rw [List.nil_append] at hitems
  exact ⟨hitems.symm, hitems.trans hfresh⟩

end Found

/-- What comes out of all that was asked between two worlds, and how often it was looked at the
output of the builds. -/
def Saw (m : Monitor) (w : World σ) (m' : Monitor) (w' : World σ) (n : Nat) : Prop :=
  ∃ es, w'.log = w.log ++ es ∧ Found m m' es ∧ looks es = n

namespace Saw

variable {n k : Nat}

lemma of_asks (chat : World.Asks h (fun c => c.isFinding = false) w w')
    (family : m'.family = m.family) (tasks : m'.tasks = m.tasks) : Saw m w m' w' 0 := by
  obtain ⟨es, hes⟩ := chat
  exact ⟨es, hes.log, .of_chat hes.mem family tasks, looks_of_chat hes.mem⟩

lemma trans (first : Saw m w m' w' n) (second : Saw m' w' m'' w'' k) :
    Saw m w m'' w'' (n + k) := by
  obtain ⟨es, hlog, found, hlooks⟩ := first
  obtain ⟨fs, hlog', found', hlooks'⟩ := second
  exact ⟨es ++ fs, World.log_trans hlog hlog', found.trans found', by
    rw [looks_append, hlooks, hlooks']⟩

/-- Only the log of a world counts. -/
lemma congr_log (saw : Saw m w m' w' n) (hlog : w''.log = w'.log) : Saw m w m' w'' n := by
  obtain ⟨es, hes, found, hlooks⟩ := saw
  exact ⟨es, hlog.trans hes, found, hlooks⟩

lemma found (saw : Saw m w m' w' n) : Found m m' (w.callsSince w') := by
  obtain ⟨es, hlog, found, -⟩ := saw
  rw [World.callsSince_of_log hlog]
  exact found

lemma looks_eq (saw : Saw m w m' w' n) : looks (w.callsSince w') = n := by
  obtain ⟨es, hlog, -, hlooks⟩ := saw
  rw [World.callsSince_of_log hlog]
  exact hlooks

end Saw

/-! ## Looks and events -/

lemma reportAll_log (h : Host σ) (ds : List Diagnostic) (w : World σ) :
    (reportAll h ds w).log = w.log ++ ds.map Exchange.report := by
  induction ds generalizing w with
  | nil => exact (List.append_nil _).symm
  | cons d ds ih =>
    rw [reportAll, List.foldl_cons]
    exact (ih _).trans (List.append_assoc w.log [Exchange.report d] _)

/-- All that is asked in a look at the output of the builds. -/
lemma collect_log (h : Host σ) (m : Monitor) (w : World σ) :
    (m.collect h w).2.2.log = w.log ++ (⟨.buildOutput, (w.ask h .buildOutput).1⟩ ::
      (m.collect h w).1.map Exchange.report) := by
  rw [collect]
  rcases hask : w.ask h .buildOutput with ⟨_ | output, w'⟩
  · exact World.log_of_ask hask
  · dsimp only
    rw [reportAll_log, World.log_of_ask hask, List.append_assoc, List.singleton_append]

/-- What a look at the output of the builds returns is what it reports. -/
lemma reported_collect (h : Host σ) (m : Monitor) (w : World σ) :
    reported (w.callsSince (m.collect h w).2.2) = (m.collect h w).1 := by
  rw [World.callsSince_of_log (collect_log h m w)]
  exact reported_reports _

/-- What comes out of a look at the output of the builds. -/
theorem collect_found (h : Host σ) (m : Monitor) (w : World σ) :
    Saw m w (m.collect h w).2.1 (m.collect h w).2.2 1 := by
  refine ⟨_, collect_log h m w, ?_, ?_⟩
  swap
  · rw [looks, List.countP_cons_of_pos rfl]
    exact congrArg (· + 1) (looks_reports _)
  have hreported : ∀ (answer : Except HostError String) (ds : List Diagnostic),
      reported (⟨.buildOutput, answer⟩ :: ds.map Exchange.report) = ds := fun _ ds =>
    reported_reports ds
  rw [collect]
  rcases hask : w.ask h .buildOutput with ⟨e | output, w'⟩
  · exact ⟨rfl, (List.append_nil _).symm, rfl⟩
  · have hcontained : contained m.family (⟨.buildOutput, .ok output⟩ ::
        (m.tasks.addAll (Remark.extract m.family output.toList)).2.map Exchange.report) =
        Remark.extract m.family output.toList := by
      rw [contained, show outputsRead (⟨.buildOutput, .ok output⟩ :: _) = output :: _ from
        congrArg (output :: ·) (outputsRead_reports _)]
      simp
    dsimp only
    refine ⟨rfl, ?_, ?_⟩
    · rw [hreported]
      exact TaskList.addAll_items _ _
    · rw [hreported, hcontained]
      exact TaskList.addAll_fresh _ _

/-- What a look at the output of the builds returns is what it adds to the list. -/
lemma collect_items (h : Host σ) (m : Monitor) (w : World σ) :
    (m.collect h w).2.1.tasks.items = m.tasks.items ++ (m.collect h w).1 := by
  rw [← reported_collect h m w]
  exact (collect_found h m w).found.items

/-- The length of a build is appended to the output and shown as a status. -/
lemma tellLength_asks {P : HostCall → Prop} (happend : ∀ text, P (.appendOutput text))
    (hstatus : ∀ text, P (.showStatus text)) (h : Host σ) (elapsed : Option Span) (w : World σ) :
    World.Asks h P w (tellLength h elapsed w) := by
  cases elapsed with
  | none => exact .refl w
  | some elapsed =>
    have happended : World.Asks h P w
        (w.tell h (.appendOutput ("\n" ++ lengthText elapsed))) := .tell w (happend _)
    exact happended.trans (.tell _ (hstatus _))

lemma announce_found (h : Host σ) (m : Monitor) (e : BuildEvent) (elapsed : Option Span)
    (w : World σ) :
    Saw m w (announce h m e elapsed w).1 (announce h m e elapsed w).2 e.isDone.toNat := by
  cases e with
  | buildBegin => exact .of_asks (h := h) (.refl w) rfl rfl
  | projectBegin | projectDone => exact .of_asks (World.Asks.tell w rfl) rfl rfl
  | buildDone =>
    have htold : Saw m w m (tellLength h elapsed w) 0 :=
      .of_asks (tellLength_asks (fun _ => rfl) (fun _ => rfl) h elapsed w) rfl rfl
    exact htold.trans (collect_found h m _)

/-- What comes out of an event: there is one look at the output of the builds at the end of a
build, and none otherwise. -/
theorem dispatch_found (h : Host σ) (m : Monitor) (e : BuildEvent) (w : World σ) :
    Saw m w (m.dispatch h e w).1 (m.dispatch h e w).2 e.isDone.toNat := by
  have htracked : Saw m w { m with tracker := (m.tracker.apply e).1 } w 0 :=
    .of_asks (h := h) (.refl w) rfl rfl
  have hannounced := htracked.trans
    (announce_found h { m with tracker := (m.tracker.apply e).1 } e (m.tracker.apply e).2 w)
  have hshown := hannounced.trans
    (.of_asks (h := h) (World.Asks.tell _ (c := .showProgress (announce h
      { m with tracker := (m.tracker.apply e).1 } e (m.tracker.apply e).2 w).1.report) rfl) rfl rfl)
  rw [Nat.zero_add, Nat.add_zero] at hshown
  -- the hub is told last, and that is not asked of the host
  exact hshown.congr_log rfl

/-! ## All that a monitor does -/

/-- What a monitor is made to do. -/
inductive Act where
  /-- It follows an event. -/
  | follow (e : BuildEvent)
  /-- It looks at the output of the builds. -/
  | look

namespace Act

/-- Whether the monitor looks at the output of the builds. -/
def isLook : Act → Bool
  | .follow e => e.isDone
  | .look => true

/-- A monitor does something. -/
def perform (h : Host σ) (m : Monitor) (w : World σ) : Act → Monitor × World σ
  | .follow e => m.dispatch h e w
  | .look => (m.collect h w).2

end Act

/-- A monitor does one thing after the other. -/
def performAll (h : Host σ) (m : Monitor) (acts : List Act) (w : World σ) : Monitor × World σ :=
  acts.foldl (fun s a => a.perform h s.1 s.2) (m, w)

lemma perform_found (h : Host σ) (m : Monitor) (w : World σ) (a : Act) :
    Saw m w (a.perform h m w).1 (a.perform h m w).2 a.isLook.toNat := by
  cases a with
  | follow e => exact dispatch_found h m e w
  | look => exact collect_found h m w

/-- What comes out of all that a monitor does. -/
theorem performAll_found (h : Host σ) (acts : List Act) (m : Monitor) (w : World σ) :
    Saw m w (m.performAll h acts w).1 (m.performAll h acts w).2 (acts.countP Act.isLook) := by
  induction acts generalizing m w with
  | nil => exact .of_asks (h := h) (.refl w) rfl rfl
  | cons a acts ih =>
    have hall := (perform_found h m w a).trans (ih _ _)
    rw [List.countP_cons, Nat.add_comm]
    cases ha : a.isLook <;> rw [ha] at hall <;> exact hall

/-- A new monitor follows events and looks at the output of the builds, in any order, and the host
may answer as it likes.  Then the diagnostics that were reported are the list of tasks, in order.
They are the first sightings among all that the outputs contain which were read, so no raw message
is reported twice.  There was one look at the end of every build, whatever its scope, and one for
every look that was asked for.  Whatever the monitor does next, its list goes on with what is
reported meanwhile.  The list stays as it is if no output is read, because the look fails or
because the event is not the end of a build.  And a look that is asked for returns exactly what it
adds to the list. -/
theorem reported_once (h : Host σ) (f : RemarkFamily) (acts : List Act) (w₀ : World σ) :
    let m := (performAll h { family := f } acts w₀).1
    let w := (performAll h { family := f } acts w₀).2
    (reported (w₀.callsSince w) = m.tasks.items ∧
      m.tasks.items = firstSightings ((outputsRead (w₀.callsSince w)).flatMap fun text =>
        Remark.extract f text.toList) ∧
      (m.tasks.items.map Diagnostic.rawMessage).Nodup ∧
      looks (w₀.callsSince w) = acts.countP Act.isLook) ∧
    (∀ a : Act,
      (a.perform h m w).1.tasks.items =
        m.tasks.items ++ reported (w.callsSince (a.perform h m w).2) ∧
      (outputsRead (w.callsSince (a.perform h m w).2) = [] →
        (a.perform h m w).1.tasks = m.tasks) ∧
      (a.isLook = false → outputsRead (w.callsSince (a.perform h m w).2) = [])) ∧
    (m.collect h w).2.1.tasks.items = m.tasks.items ++ (m.collect h w).1 := by
  intro m w
  have hall : Saw { family := f } w₀ m w (acts.countP Act.isLook) := performAll_found h acts _ w₀
  obtain ⟨hreported, hitems⟩ := hall.found.of_new
  refine ⟨⟨hreported, hitems, ?_, hall.looks_eq⟩, fun a => ?_, collect_items h m w⟩
  · rw [hitems]
    exact nodup_firstSightings _
  · have hact := perform_found h m w a
    refine ⟨hact.found.items, fun hnone => (hact.found.tasks_eq hnone).2, fun hlook => ?_⟩
    have hzero := hact.looks_eq
    rw [hlook] at hzero
    refine List.filterMap_eq_nil_iff.mpr fun e he => Exchange.output?_of_no_look ?_
    simpa using List.countP_eq_zero.mp hzero e he

end Monitor

end BuildLens
