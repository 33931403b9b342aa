/-
Conversations with a host.

In a step a session asks the host one thing after another.  This file describes such a
conversation by the list of its exchanges and says what it leaves alone: the gate, the
earlier log, and the options of the files that it does not write.

What a host does with options is seen through an `OptionView`: the options that are in force
are a function of the state of the host, and no call but a write changes them.  What a write
does is left open: it may fail, or fail half-way.  In an `OptionStore` a write to a file takes
effect if the file was written before and not read since, so that the first write after a
reading may fail half-way, but the one that puts the options back may not.
-/
import Mathlib.Tactic.Common
import BuildLens.Session.Run

namespace BuildLens

namespace HostCall

/-- Whether a call writes options. -/
def isWrite : HostCall → Bool
  | .writeOptions _ _ _ => true
  | _ => false

/-- Whether a call has to do with options or with the compiler. -/
def isTool : HostCall → Bool
  | .readOptions _ _ => true
  | .writeOptions _ _ _ => true
  | .compileFile _ => true
  | .buildProject _ => true
  | _ => false

lemma isTool_of_isWrite {c : HostCall} (h : c.isWrite = true) : c.isTool = true := by
  cases c <;> simp_all [isWrite, isTool]

/-- Whether a call finds out what a session is about, or shows a text in passing. -/
def isInquiry : HostCall → Bool
  | .activeDocument => true
  | .lineText _ _ => true
  | .switchToSibling _ _ => true
  | .showStatus _ => true
  | _ => false

/-- Whether a call tells the user how a session has ended. -/
def isVerdict : HostCall → Bool
  | .openArtifact _ _ => true
  | .showError _ _ => true
  | _ => false

lemma isTool_of_isInquiry {c : HostCall} (h : c.isInquiry = true) : c.isTool = false := by
  cases c <;> simp_all [isInquiry, isTool]

lemma isVerdict_of_isInquiry {c : HostCall} (h : c.isInquiry = true) : c.isVerdict = false := by
  cases c <;> simp_all [isInquiry, isVerdict]

end HostCall

/-- The exchanges among some that have to do with options or with the compiler. -/
def toolExchanges (es : List Exchange) : List Exchange :=
  es.filter fun e => e.call.isTool

@[simp] lemma toolExchanges_nil : toolExchanges [] = [] := rfl

@[simp] lemma toolExchanges_append (es fs : List Exchange) :
    toolExchanges (es ++ fs) = toolExchanges es ++ toolExchanges fs :=
  List.filter_append ..

lemma toolExchanges_eq_nil {es : List Exchange} (h : ∀ e ∈ es, e.call.isTool = false) :
    toolExchanges es = [] := by
  simpa [toolExchanges] using h

/-- The exchanges among some that write options. -/
def writes (es : List Exchange) : List Exchange :=
  es.filter fun e => e.call.isWrite

@[simp] lemma writes_nil : writes [] = [] := rfl

@[simp] lemma writes_append (es fs : List Exchange) :
    writes (es ++ fs) = writes es ++ writes fs :=
  List.filter_append ..

/-- The exchanges among some that tell the user how a session has ended. -/
def verdicts (es : List Exchange) : List Exchange :=
  es.filter fun e => e.call.isVerdict

@[simp] lemma verdicts_append (es fs : List Exchange) :
    verdicts (es ++ fs) = verdicts es ++ verdicts fs :=
  List.filter_append ..

lemma verdicts_eq_nil {es : List Exchange} (h : ∀ e ∈ es, e.call.isVerdict = false) :
    verdicts es = [] := by
  simpa [verdicts] using h

/-- A write has to do with options. -/
lemma writes_toolExchanges (es : List Exchange) : writes (toolExchanges es) = writes es := by
  rw [writes, toolExchanges, List.filter_filter]
  refine List.filter_congr fun e _ => ?_
  cases hw : e.call.isWrite with
  | false => simp
  | true => simp [HostCall.isTool_of_isWrite hw]

namespace World

variable {σ : Type} {h : Host σ}

section

variable {w w' : World σ} {c : HostCall} {a : c.Answer}

lemma log_ask (h : Host σ) (w : World σ) (c : HostCall) :
    (w.ask h c).2.log = w.log ++ [⟨c, (w.ask h c).1⟩] := rfl

lemma gate_of_ask (hask : w.ask h c = (a, w')) : w'.gate = w.gate := by
  rw [show w' = (w.ask h c).2 by rw [hask]]
  rfl

lemma log_of_ask (hask : w.ask h c = (a, w')) : w'.log = w.log ++ [⟨c, a⟩] := by
  rw [show w' = (w.ask h c).2 by rw [hask], show a = (w.ask h c).1 by rw [hask]]
  rfl

lemma host_of_ask (hask : w.ask h c = (a, w')) : w'.host = (h.reply c w.host w.files).host := by
  rw [show w' = (w.ask h c).2 by rw [hask]]
  rfl

lemma files_of_ask (hask : w.ask h c = (a, w')) :
    w'.files = (h.reply c w.host w.files).files := by
  rw [show w' = (w.ask h c).2 by rw [hask]]
  rfl

lemma answer_of_ask (hask : w.ask h c = (a, w')) :
    (h.reply c w.host w.files).answer = a := by
  rw [show a = (w.ask h c).1 by rw [hask]]
  rfl

end

/-- The exchanges in a world that were not yet in an earlier one. -/
def callsSince (w w' : World σ) : List Exchange :=
  w'.log.drop w.log.length

lemma callsSince_of_log {w w' : World σ} {es : List Exchange} (hlog : w'.log = w.log ++ es) :
    w.callsSince w' = es := by
  rw [callsSince, hlog, List.drop_left]

@[simp] lemma callsSince_self (w : World σ) : w.callsSince w = [] :=
  List.drop_length

lemma callsSince_trans {w w' w'' : World σ} {es fs : List Exchange}
    (hlog : w'.log = w.log ++ es) (hlog' : w''.log = w'.log ++ fs) :
    w.callsSince w'' = w.callsSince w' ++ w'.callsSince w'' := by
  rw [callsSince_of_log hlog, callsSince_of_log hlog', callsSince, hlog', hlog,
    List.append_assoc, List.drop_left]

lemma log_trans {w w' w'' : World σ} {es fs : List Exchange} (hlog : w'.log = w.log ++ es)
    (hlog' : w''.log = w'.log ++ fs) : w''.log = w.log ++ (es ++ fs) := by
  rw [hlog', hlog, List.append_assoc]

/-- A world follows from another one by a conversation in which only calls with a property
are made. -/
inductive Asked (h : Host σ) (P : HostCall → Prop) :
    World σ → List Exchange → World σ → Prop
  | refl (w : World σ) : Asked h P w [] w
  | ask {w w' : World σ} {es : List Exchange} (hw : Asked h P w es w') {c : HostCall}
      (hc : P c) : Asked h P w (es ++ [⟨c, (w'.ask h c).1⟩]) (w'.ask h c).2

namespace Asked

variable {P : HostCall → Prop} {w w' w'' : World σ} {es fs : List Exchange}

lemma single {c : HostCall} (hc : P c) (w : World σ) :
    Asked h P w [⟨c, (w.ask h c).1⟩] (w.ask h c).2 :=
  .ask (.refl w) hc

lemma trans (hw : Asked h P w es w') (hw' : Asked h P w' fs w'') :
    Asked h P w (es ++ fs) w'' := by
  induction hw' with
  | refl => simpa using hw
  | ask _ hc ih => rw [← List.append_assoc]; exact .ask ih hc

lemma mem (hw : Asked h P w es w') : ∀ e ∈ es, P e.call := by
  induction hw with
  | refl => simp
  | ask _ hc ih =>
    intro e he
    rcases List.mem_append.mp he with he | he
    · exact ih e he
    · rw [List.mem_singleton.mp he]; exact hc

lemma log (hw : Asked h P w es w') : w'.log = w.log ++ es := by
  induction hw with
  | refl => simp
  | ask _ _ ih => rw [log_ask, ih, List.append_assoc]

lemma mono {Q : HostCall → Prop} (hw : Asked h P w es w') (hPQ : ∀ c, P c → Q c) :
    Asked h Q w es w' := by
  induction hw with
  | refl => exact .refl w
  | ask _ hc ih => exact .ask ih (hPQ _ hc)

lemma gate (hw : Asked h P w es w') : w'.gate = w.gate := by
  induction hw with
  | refl => rfl
  | ask _ _ ih => exact ih

end Asked

/-- A world follows from another one by some conversation in which only calls with a property
are made. -/
def Asks (h : Host σ) (P : HostCall → Prop) (w w' : World σ) : Prop :=
  ∃ es, Asked h P w es w'

namespace Asks

variable {P Q : HostCall → Prop} {w w' w'' : World σ}

lemma refl (w : World σ) : Asks h P w w :=
  ⟨[], .refl w⟩

lemma trans (hw : Asks h P w w') (hw' : Asks h P w' w'') : Asks h P w w'' := by
  obtain ⟨es, hes⟩ := hw
  obtain ⟨fs, hfs⟩ := hw'
  exact ⟨es ++ fs, hes.trans hfs⟩

lemma ask (w : World σ) {c : HostCall} (hc : P c) : Asks h P w (w.ask h c).2 :=
  ⟨_, .single hc w⟩

lemma tell (w : World σ) {c : HostCall} (hc : P c) : Asks h P w (w.tell h c) :=
  ask w hc

lemma mono (hw : Asks h P w w') (hPQ : ∀ c, P c → Q c) : Asks h Q w w' := by
  obtain ⟨es, hes⟩ := hw
  exact ⟨es, hes.mono hPQ⟩

lemma gate (hw : Asks h P w w') : w'.gate = w.gate := by
  obtain ⟨es, hes⟩ := hw
  exact hes.gate

lemma mem_callsSince (hw : Asks h P w w') : ∀ e ∈ w.callsSince w', P e.call := by
  obtain ⟨es, hes⟩ := hw
  rw [callsSince_of_log hes.log]
  exact hes.mem

end Asks

/-- A world follows from another one by a conversation that has nothing to do with options or
with the compiler. -/
def Quiet (h : Host σ) (w w' : World σ) : Prop :=
  Asks h (fun c => c.isTool = false) w w'

namespace Quiet

lemma toolExchanges_callsSince {w w' : World σ} (hw : Quiet h w w') :
    toolExchanges (w.callsSince w') = [] :=
  toolExchanges_eq_nil hw.mem_callsSince

end Quiet

/-- A world follows from another one by a conversation in which only inquiries are made. -/
def Inquired (h : Host σ) (w w' : World σ) : Prop :=
  Asks h (fun c => c.isInquiry = true) w w'

/-- The same, with the exchanges. -/
abbrev Inquires (h : Host σ) : World σ → List Exchange → World σ → Prop :=
  Asked h fun c => c.isInquiry = true

lemma Inquires.ask (h : Host σ) (w : World σ) {c : HostCall} (hc : c.isInquiry = true) :
    Inquires h w [⟨c, (w.ask h c).1⟩] (w.ask h c).2 :=
  .single hc w

namespace Inquired

lemma quiet {w w' : World σ} (hw : Inquired h w w') : Quiet h w w' :=
  hw.mono fun _ => HostCall.isTool_of_isInquiry

lemma verdicts_callsSince {w w' : World σ} (hw : Inquired h w w') :
    verdicts (w.callsSince w') = [] :=
  verdicts_eq_nil fun e he => HostCall.isVerdict_of_isInquiry (hw.mem_callsSince e he)

end Inquired

end World

/-! ## Options -/

/-- What can be seen of the options that a host keeps. -/
structure OptionView {σ : Type} (h : Host σ) where
  /-- The options of a file that are in force. -/
  options : σ → String → Target → Options
  /-- A reading that works gives the options that are in force. -/
  options_read : ∀ {s : σ} {t : FileTree} {file : String} {target : Target} {o : Options},
    (h.reply (.readOptions file target) s t).answer = .ok o → options s file target = o
  /-- Only a write changes options, and only those of its file and its target. -/
  options_keep : ∀ {c : HostCall} {s : σ} {t : FileTree} {file : String} {target : Target},
    (∀ o, c ≠ .writeOptions file target o) →
      options (h.reply c s t).host file target = options s file target

/-- What a host does with options if it fails to take over at most the first one of some
writes. -/
structure OptionStore {σ : Type} (h : Host σ) extends OptionView h where
  /-- Whether the options of a file were written and not read since. -/
  written : σ → String → Target → Prop
  /-- A write after a write takes effect, whatever the host answers. -/
  options_write : ∀ {s : σ} {t : FileTree} {file : String} {target : Target} {o : Options},
    written s file target →
      options (h.reply (.writeOptions file target o) s t).host file target = o
  /-- A write has taken place, whatever the host answers. -/
  written_write : ∀ {s : σ} {t : FileTree} {file : String} {target : Target} {o : Options},
    written (h.reply (.writeOptions file target o) s t).host file target
  /-- Only a reading makes a host forget a write. -/
  written_keep : ∀ {c : HostCall} {s : σ} {t : FileTree} {file : String} {target : Target},
    c ≠ .readOptions file target → written s file target →
      written (h.reply c s t).host file target

section

variable {σ : Type} {h : Host σ} {w w' : World σ} {file : String} {target : Target}

namespace OptionView

variable (V : OptionView h)

lemma options_ask {c : HostCall} {a : c.Answer} (hask : w.ask h c = (a, w'))
    (hc : ∀ o, c ≠ .writeOptions file target o) :
    V.options w'.host file target = V.options w.host file target := by
  rw [World.host_of_ask hask]
  exact V.options_keep hc

lemma options_quiet (hw : World.Quiet h w w') :
    V.options w'.host file target = V.options w.host file target := by
  obtain ⟨es, hes⟩ := hw
  induction hes with
  | refl => rfl
  | ask _ hc ih =>
    rw [← ih]
    refine V.options_keep fun o ho => ?_
    rw [ho] at hc
    exact absurd hc (by simp [HostCall.isTool])

end OptionView

namespace OptionStore

variable (K : OptionStore h)

lemma written_ask {c : HostCall} {a : c.Answer} (hask : w.ask h c = (a, w'))
    (hc : c ≠ .readOptions file target) (hwritten : K.written w.host file target) :
    K.written w'.host file target := by
  rw [World.host_of_ask hask]
  exact K.written_keep hc hwritten

lemma written_quiet (hw : World.Quiet h w w') (hwritten : K.written w.host file target) :
    K.written w'.host file target := by
  obtain ⟨es, hes⟩ := hw
  induction hes with
  | refl => exact hwritten
  | ask _ hc ih =>
    refine K.written_keep (fun hr => ?_) ih
    rw [hr] at hc
    exact absurd hc (by simp [HostCall.isTool])

end OptionStore

end

/-! ## Options in a table -/

/-- The state of a host that keeps options in a table. -/
structure OptionTable where
  /-- The options in force. -/
  options : String → Target → Options := fun _ _ => {}
  /-- Whether options were written and not read since. -/
  written : String → Target → Bool := fun _ _ => false

namespace OptionTable

/-- The table with other options for a file. -/
def set (s : OptionTable) (file : String) (target : Target) (o : Options) : OptionTable where
  options f t := if f = file ∧ t = target then o else s.options f t
  written f t := if f = file ∧ t = target then true else s.written f t

/-- The table after the options of a file were read. -/
def forget (s : OptionTable) (file : String) (target : Target) : OptionTable where
  options := s.options
  written f t := if f = file ∧ t = target then false else s.written f t

/-- A host with one document.  It keeps options in a table and builds projects, but does not
compile single files.  `first` tells what becomes of a write that follows no other one, in view of
the options in force: the answer, and the options that are in force afterwards. -/
def host (d : Document) (first : Options → Options → Except HostError Unit × Options) :
    Host OptionTable where
  reply
    | .activeDocument, s, t => ⟨.ok d, s, t, []⟩
    | .lineText _ _, s, t => ⟨.ok d.enclosingFunction, s, t, []⟩
    | .switchToSibling _ _, s, t => ⟨.ok none, s, t, []⟩
    | .readOptions file target, s, t => ⟨.ok (s.options file target), s.forget file target, t, []⟩
    | .writeOptions file target o, s, t =>
      let (answer, taken) := if s.written file target then (.ok (), o)
        else first (s.options file target) o
      ⟨answer, s.set file target taken, t, []⟩
    | .compileFile file, s, t => ⟨.refused (.unsupported file), s, t, []⟩
    | .buildProject _, s, t => ⟨.ok (), s, t, []⟩
    | .buildOutput, s, t => ⟨.ok "", s, t, []⟩
    | .openArtifact _ _, s, t => ⟨.ok (), s, t, []⟩
    | .showStatus _, s, t | .addDiagnostic _, s, t | .showError _ _, s, t
    | .appendOutput _, s, t | .showProgress _, s, t => ⟨(), s, t, []⟩

/-- A document of a project. -/
def document (target : Target) : Document where
  path := "main.cpp"
  cursorLine := 1
  enclosingFunction := some "int main()"
  target := some target

/-- Whatever becomes of first writes, a table is a store of options. -/
def store (d : Document) (first : Options → Options → Except HostError Unit × Options) :
    OptionStore (host d first) where
  options := OptionTable.options
  written s file target := s.written file target = true
  options_read heq := by simpa [host] using heq
  options_keep {c s t file target} hc := by
    cases c with
    | writeOptions f t o =>
      have hne : ¬ (file = f ∧ target = t) := fun heq => hc o (by rw [heq.1, heq.2])
      simp [host, set, hne]
    | _ => rfl
  options_write hwritten := by simp [host, set, hwritten]
  written_write := by simp [host, set]
  written_keep {c s t file target} hc hwritten := by
    cases c with
    | readOptions f t =>
      have hne : ¬ (file = f ∧ target = t) := fun heq => hc (by rw [heq.1, heq.2])
      simpa [host, forget, hwritten] using not_and_or.mp hne
    | writeOptions f t o => simp [host, set, hwritten]
    | _ => exact hwritten

end OptionTable

end BuildLens
