/-
What a session finds out.

A session starts from the active document.  It looks up lines near the cursor, one after another,
until one of them says something, notes the function around the cursor, and, if the document is a
header, has a file made active that implements it.  Everything else that is said about this
conversation follows from three relations between what is asked and what comes of it:

* `Capture.Sought`: the lines that are looked up;
* `Capture.Implemented`: the document that is compiled;
* `Capture.Taken`: the conversation as a whole, which no host can lead elsewhere
  (`Capture.take_asked`).
-/
import BuildLens.Proofs.Asking
import BuildLens.Proofs.Text.Trimming

namespace BuildLens

open BuildLens.Text

namespace SessionError

/-- A failure of the host is an error of one of three kinds. -/
lemma kind_ofHost_mem (e : HostError) :
    (ofHost e).kind ∈ [SessionErrorKind.externalToolUnavailable, .io, .host] := by
  cases e <;> simp [ofHost]

lemma kind_ofHost_ne (e : HostError) {kind : SessionErrorKind}
    (h : kind ∉ [SessionErrorKind.externalToolUnavailable, .io, .host]) :
    (ofHost e).kind ≠ kind := by
  rintro rfl
  exact h (kind_ofHost_mem e)

lemma kind_ofIo (e : IoError) : (ofIo e).kind = .io := rfl

end SessionError

/-- A line that was looked up in a file, and what it says. -/
structure Lookup where
  /-- The line, counted from 1. -/
  line : Nat
  /-- What the host answered. -/
  answer : Except HostError (Option String)

namespace Lookup

/-- The exchange in which a line of a file was looked up. -/
def exchange (path : String) (l : Lookup) : Exchange :=
  ⟨.lineText path l.line, l.answer⟩

/-- There is no such line, or it is blank. -/
def Vain (l : Lookup) : Prop :=
  ∃ text, l.answer = .ok text ∧ ∀ t ∈ text, trim t.toList = []

end Lookup

namespace Capture

/-! ## The line of code -/

/-- What comes of looking up lines in turn.  All but the last one are absent or blank. -/
inductive Sought (lines : List Nat) : List Lookup → Except SessionError String → Prop
  /-- There is no code in any of the lines. -/
  | exhausted {looked : List Lookup} (all : looked.map Lookup.line = lines)
      (vain : ∀ l ∈ looked, l.Vain) : Sought lines looked (.error .noUsableSourceLine)
  /-- The host fails. -/
  | failed {front : List Lookup} {line : Nat} {e : HostError}
      (near : front.map Lookup.line ++ [line] <+: lines) (vain : ∀ l ∈ front, l.Vain) :
      Sought lines (front ++ [⟨line, .error e⟩]) (.error (.ofHost e))
  /-- A line is not blank. -/
  | found {front : List Lookup} {line : Nat} {text : String}
      (near : front.map Lookup.line ++ [line] <+: lines) (vain : ∀ l ∈ front, l.Vain)
      (code : trim text.toList ≠ []) :
      Sought lines (front ++ [⟨line, .ok (some text)⟩]) (.ok (trimmed text))

/-- A line that is absent or blank is passed over. -/
lemma Sought.cons {l : Lookup} {lines : List Nat} {looked : List Lookup}
    {result : Except SessionError String} (hl : l.Vain) (s : Sought lines looked result) :
    Sought (l.line :: lines) (l :: looked) result := by
  cases s with
  | exhausted all vain =>
    exact .exhausted (by rw [List.map_cons, all]) (List.forall_mem_cons.mpr ⟨hl, vain⟩)
  | failed near vain =>
    rw [← List.cons_append]
    exact .failed ((List.prefix_cons_inj _).mpr near) (List.forall_mem_cons.mpr ⟨hl, vain⟩)
  | found near vain code =>
    rw [← List.cons_append]
    exact .found ((List.prefix_cons_inj _).mpr near) (List.forall_mem_cons.mpr ⟨hl, vain⟩) code

section

variable {σ : Type} (h : Host σ) (config : SessionConfig)

/-- A line that is absent or blank is passed over. -/
lemma firstCode_of_vain {path : String} {line : Nat} {text : Option String} {w w' : World σ}
    (hask : w.ask h (.lineText path line) = (.ok text, w'))
    (hvain : ∀ t ∈ text, trim t.toList = []) (lines : List Nat) :
    firstCode h path (line :: lines) w = firstCode h path lines w' := by
  rw [firstCode, hask]
  cases text with
  | none => rfl
  | some text => exact if_pos (isBlank_iff.mpr (hvain text rfl))

/-- A line that is not blank is taken. -/
lemma firstCode_of_code {path : String} {line : Nat} {text : String} {w w' : World σ}
    (hask : w.ask h (.lineText path line) = (.ok (some text), w'))
    (hcode : trim text.toList ≠ []) (lines : List Nat) :
    firstCode h path (line :: lines) w = (.ok (trimmed text), w') := by
  rw [firstCode, hask]
  exact if_neg (mt isBlank_iff.mp hcode)

lemma firstCode_asked (path : String) (lines : List Nat) (w : World σ) :
    ∃ looked,
      World.Inquires h w (looked.map (Lookup.exchange path)) (firstCode h path lines w).2 ∧
        Sought lines looked (firstCode h path lines w).1 := by
  induction lines generalizing w with
  | nil => exact ⟨[], .refl w, .exhausted rfl (by simp)⟩
  | cons line lines ih =>
    have hfirst : [line] <+: line :: lines := ⟨lines, rfl⟩
    have hasked := World.Inquires.ask h w (c := .lineText path line) rfl
    rcases hask : w.ask h (.lineText path line) with ⟨e | text, w'⟩
    · rw [hask] at hasked
      have hsought : Sought (line :: lines) ([] ++ [⟨line, .error e⟩]) (.error (.ofHost e)) :=
        .failed hfirst (by simp)
      rw [firstCode, hask]
      exact ⟨[⟨line, .error e⟩], hasked, hsought⟩
    · rw [hask] at hasked
      by_cases hvain : ∀ t ∈ text, trim t.toList = []
      · obtain ⟨looked, hlooked, hsought⟩ := ih w'
        have hl : Lookup.Vain ⟨line, .ok text⟩ := ⟨text, rfl, hvain⟩
        rw [firstCode_of_vain h hask hvain]
        exact ⟨⟨line, .ok text⟩ :: looked, hasked.trans hlooked, hsought.cons hl⟩
      · obtain ⟨text, rfl, hcode⟩ : ∃ t, text = some t ∧ trim t.toList ≠ [] := by
          simpa using hvain
        have hsought : Sought (line :: lines) ([] ++ [⟨line, .ok (some text)⟩])
            (.ok (trimmed text)) :=
          .found hfirst (by simp) hcode
        rw [firstCode_of_code h hask hcode]
        exact ⟨[⟨line, .ok (some text)⟩], hasked, hsought⟩

/-! ## The function -/

/-- What the user is told about the function around the cursor of a document. -/
def notes (d : Document) : List Exchange :=
  if isBlank (d.enclosingFunction.getD "") then [⟨.showStatus unknownFunction, ()⟩] else []

lemma signatureOf_eq (d : Document) (w : World σ) :
    (signatureOf h d w).1 = trimmed (d.enclosingFunction.getD "") := by
  rw [signatureOf]
  split
  next f hf =>
    rw [hf, Option.getD_some]
    split
    next hblank => rw [trimmed, isBlank_iff.mp hblank]
    next => rfl
  next hf => rw [hf]; rfl

lemma signatureOf_asked (d : Document) (w : World σ) :
    World.Inquires h w (notes d) (signatureOf h d w).2 := by
  rw [signatureOf, notes]
  cases d.enclosingFunction with
  | none => exact .ask h w rfl
  | some f =>
    dsimp only [Option.getD_some]
    split
    · exact .ask h w rfl
    · exact .refl w

/-! ## The file -/

/-- What comes of looking for the document that is compiled: the given one, or if that is a header,
the one that is active when a file that implements it was made active. -/
inductive Implemented (config : SessionConfig) (d : Document) :
    List Exchange → Except SessionError Document → Prop
  /-- The document itself is compiled. -/
  | itself (source : config.isHeader d.path = false) : Implemented config d [] (.ok d)
  /-- The host cannot make another file active. -/
  | unswitched {e : HostError} (header : config.isHeader d.path = true) :
      Implemented config d
        [⟨.switchToSibling d.path config.implementationExtensions, .error e⟩] (.error (.ofHost e))
  /-- There is no file that implements the header. -/
  | alone (header : config.isHeader d.path = true) :
      Implemented config d
        [⟨.switchToSibling d.path config.implementationExtensions, .ok none⟩]
        (.error .noImplementationFile)
  /-- The host does not tell which document is active now. -/
  | lost {sibling : String} {e : HostError} (header : config.isHeader d.path = true) :
      Implemented config d
        [⟨.switchToSibling d.path config.implementationExtensions, .ok (some sibling)⟩,
          ⟨.activeDocument, .error e⟩] (.error (.ofHost e))
  /-- The document that is active now is compiled. -/
  | switched {sibling : String} {d' : Document} (header : config.isHeader d.path = true) :
      Implemented config d
        [⟨.switchToSibling d.path config.implementationExtensions, .ok (some sibling)⟩,
          ⟨.activeDocument, .ok d'⟩] (.ok d')

lemma implementation_asked (d : Document) (w : World σ) :
    ∃ es, World.Inquires h w es (implementation h config d w).2 ∧
      Implemented config d es (implementation h config d w).1 := by
  rw [implementation]
  split
  next header =>
    have hswitch := World.Inquires.ask h w
      (c := .switchToSibling d.path config.implementationExtensions) rfl
    split
    next heq =>
      rw [heq] at hswitch
      exact ⟨_, hswitch, .unswitched header⟩
    next heq =>
      rw [heq] at hswitch
      exact ⟨_, hswitch, .alone header⟩
    next sibling w₁ heq =>
      rw [heq] at hswitch
      have hactive := World.Inquires.ask h w₁ (c := .activeDocument) rfl
      split
      next heq' =>
        rw [heq'] at hactive
        exact ⟨_, hswitch.trans hactive, .lost header⟩
      next heq' =>
        rw [heq'] at hactive
        exact ⟨_, hswitch.trans hactive, .switched header⟩
  next source => exact ⟨[], .refl w, .itself (Bool.not_eq_true _ ▸ source)⟩

/-! ## The conversation as a whole -/

/-- What comes of finding out what a session is about.  The line and the function are those of the
document that is active at first, the file and the target those of the document that is
compiled. -/
inductive Taken (config : SessionConfig) :
    List Exchange → Except SessionError Capture → Prop
  /-- The host does not tell which document is active. -/
  | lost {e : HostError} : Taken config [⟨.activeDocument, .error e⟩] (.error (.ofHost e))
  /-- No line of code is found. -/
  | codeless {d : Document} {looked : List Lookup} {e : SessionError}
      (sought : Sought (config.probeOffsets.filterMap (probedLine d.cursorLine)) looked
        (.error e)) :
      Taken config (⟨.activeDocument, .ok d⟩ :: looked.map (Lookup.exchange d.path)) (.error e)
  /-- There is no document that could be compiled. -/
  | stranded {d : Document} {looked : List Lookup} {switch : List Exchange} {line : String}
      {e : SessionError}
      (sought : Sought (config.probeOffsets.filterMap (probedLine d.cursorLine)) looked (.ok line))
      (implemented : Implemented config d switch (.error e)) :
      Taken config (⟨.activeDocument, .ok d⟩ ::
        (looked.map (Lookup.exchange d.path) ++ (notes d ++ switch))) (.error e)
  /-- The document that is to be compiled belongs to no target. -/
  | homeless {d d' : Document} {looked : List Lookup} {switch : List Exchange} {line : String}
      (sought : Sought (config.probeOffsets.filterMap (probedLine d.cursorLine)) looked (.ok line))
      (implemented : Implemented config d switch (.ok d')) (target : d'.target = none) :
      Taken config (⟨.activeDocument, .ok d⟩ ::
        (looked.map (Lookup.exchange d.path) ++ (notes d ++ switch)))
        (.error (.notInProject d'.path))
  /-- It is known what the session is about. -/
  | found {d d' : Document} {looked : List Lookup} {switch : List Exchange} {line : String}
      {target : Target}
      (sought : Sought (config.probeOffsets.filterMap (probedLine d.cursorLine)) looked (.ok line))
      (implemented : Implemented config d switch (.ok d')) (target_eq : d'.target = some target) :
      Taken config (⟨.activeDocument, .ok d⟩ ::
        (looked.map (Lookup.exchange d.path) ++ (notes d ++ switch)))
        (.ok ⟨d'.path, target, trimmed (d.enclosingFunction.getD ""), some line⟩)

/-- Whatever the host answers, that is the conversation. -/
theorem take_asked (w : World σ) :
    ∃ es, World.Inquires h w es (take h config w).2 ∧
      Taken config es (take h config w).1 := by
  have hactive := World.Inquires.ask h w (c := .activeDocument) rfl
  rw [take]
  split
  next e w₁ heq =>
    rw [heq] at hactive
    exact ⟨_, hactive, .lost⟩
  next d w₁ heq =>
    rw [heq] at hactive
    obtain ⟨looked, hlooked, sought⟩ := firstCode_asked h d.path
      (config.probeOffsets.filterMap (probedLine d.cursorLine)) w₁
    rw [← codeLine] at hlooked sought
    split
    next e w₂ heq =>
      rw [heq] at hlooked sought
      exact ⟨_, hactive.trans hlooked, .codeless sought⟩
    next line w₂ heq =>
      rw [heq] at hlooked sought
      obtain ⟨switch, hswitch, implemented⟩ :=
        implementation_asked h config d (signatureOf h d w₂).2
      have hall := hactive.trans (hlooked.trans ((signatureOf_asked h d w₂).trans hswitch))
      dsimp only
      split
      next heq =>
        rw [heq] at hall implemented
        exact ⟨_, hall, .stranded sought implemented⟩
      next d' w₃ heq =>
        rw [heq] at hall implemented
        split
        next target => exact ⟨_, hall, .homeless sought implemented target⟩
        next target target_eq =>
          rw [signatureOf_eq]
          exact ⟨_, hall, .found sought implemented target_eq⟩

end

/-- Why a session may not find out what it is about. -/
lemma Taken.error_cases {config : SessionConfig} {es : List Exchange} {e : SessionError}
    (taken : Taken config es (.error e)) :
    (∃ e', e = .ofHost e') ∨ e = .noUsableSourceLine ∨ e = .noImplementationFile ∨
      ∃ path, e = .notInProject path := by
  cases taken with
  | lost => exact .inl ⟨_, rfl⟩
  | codeless sought =>
    cases sought with
    | exhausted => exact .inr (.inl rfl)
    | failed => exact .inl ⟨_, rfl⟩
  | stranded _ implemented =>
    cases implemented with
    | unswitched | lost => exact .inl ⟨_, rfl⟩
    | alone => exact .inr (.inr (.inl rfl))
  | homeless => exact .inr (.inr (.inr ⟨_, rfl⟩))

/-- Only inquiries are made while a session finds out what it is about. -/
lemma take_inquired {σ : Type} (h : Host σ) (config : SessionConfig) (w : World σ) :
    World.Inquired h w (take h config w).2 := by
  obtain ⟨es, hes, -⟩ := take_asked h config w
  exact ⟨es, hes⟩

end Capture

end BuildLens
