/-
Sessions side by side.

Some sessions share a gate and a host.  In a `Company` any of them takes the next step at any
time, those that wait may be interrupted, and the world may change around them, as long as
the gate and the options are left alone.  The company also keeps what each session has asked
the host, and whether it has moved the gate.

Two invariants hold on the way, and each step keeps them:

* `Guarded`: the gate holds the targets of exactly those sessions that have a permit, and no
  two of them have a permit for the same one;
* `Kept`: a session that has changed the options of a file keeps the ones of the start to put
  them back, and the options that no session has changed are those of the start.

The first one makes sure that a session that changes options finds them as they were at the
start, since no other one can have changed them.
-/
import BuildLens.Proofs.Session.Course
import Mathlib.Logic.Function.Basic

namespace BuildLens

/-! ## The gate -/

section

variable {ι : Type} [DecidableEq ι]

/-- What somebody has after one of them was given something else: that, or what it had before. -/
lemma update_eq_some {α : Type} {f : ι → Option α} {i j : ι} {x : Option α} {y : α}
    (hy : Function.update f i x j = some y) :
    (j = i ∧ x = some y) ∨ (j ≠ i ∧ f j = some y) := by
  by_cases hj : j = i
  · subst hj
    rw [Function.update_self] at hy
    exact .inl ⟨rfl, hy⟩
  · rw [Function.update_of_ne hj] at hy
    exact .inr ⟨hj, hy⟩

/-- The gate holds exactly the keys of the permits, and no two permits have the same key. -/
structure Guarded (held : List String) (permits : ι → Option Permit) : Prop where
  held_iff : ∀ key, key ∈ held ↔ ∃ i p, permits i = some p ∧ p.key = key
  exclusive : ∀ {i j p q}, permits i = some p → permits j = some q → p.key = q.key → i = j

namespace Guarded

variable {held : List String} {permits : ι → Option Permit} {i : ι}

omit [DecidableEq ι] in
lemma empty : Guarded [] fun _ : ι => (none : Option Permit) :=
  ⟨by simp, by simp⟩

/-- A session without a permit claims a target that nobody holds. -/
lemma claim {key : String} (g : Guarded held permits) (hi : permits i = none)
    (hkey : key ∉ held) :
    Guarded (key :: held) (Function.update permits i (some ⟨key⟩)) := by
  have hne : ∀ {j p}, permits j = some p → p.key ≠ key := fun hp heq =>
    hkey ((g.held_iff key).mpr ⟨_, _, hp, heq⟩)
  constructor
  · intro k
    rw [List.mem_cons, g.held_iff]
    constructor
    · rintro (rfl | ⟨j, p, hp, rfl⟩)
      · exact ⟨i, ⟨k⟩, Function.update_self .., rfl⟩
      · have hj : j ≠ i := by
          rintro rfl
          rw [hi] at hp
          exact absurd hp (by simp)
        exact ⟨j, p, by rw [Function.update_of_ne hj, hp], rfl⟩
    · rintro ⟨j, p, hp, rfl⟩
      rcases update_eq_some hp with ⟨-, hp⟩ | ⟨-, hp⟩
      · exact .inl (by rw [← Option.some.inj hp])
      · exact .inr ⟨j, p, hp, rfl⟩
  · intro a b p q hp hq heq
    rcases update_eq_some hp with ⟨ha, hp⟩ | ⟨-, hp⟩ <;>
      rcases update_eq_some hq with ⟨hb, hq⟩ | ⟨-, hq⟩
    · rw [ha, hb]
    · -- the claimed key is nobody else's
      rw [← Option.some.inj hp] at heq
      exact absurd heq.symm (hne hq)
    · rw [← Option.some.inj hq] at heq
      exact absurd heq (hne hp)
    · exact g.exclusive hp hq heq

/-- A session gives its permit back. -/
lemma free {p : Permit} (g : Guarded held permits) (hi : permits i = some p) :
    Guarded (held.filter (· != p.key)) (Function.update permits i none) := by
  have hother : ∀ {j q}, Function.update permits i none j = some q →
      j ≠ i ∧ permits j = some q := by
    intro j q hq
    rcases update_eq_some hq with ⟨-, hq⟩ | hq
    · exact absurd hq (by simp)
    · exact hq
  constructor
  · intro k
    rw [List.mem_filter, g.held_iff, bne_iff_ne]
    constructor
    · rintro ⟨⟨j, q, hq, rfl⟩, hne⟩
      have hj : j ≠ i := by
        rintro rfl
        exact hne (by rw [Option.some.inj (hq.symm.trans hi)])
      exact ⟨j, q, by rw [Function.update_of_ne hj, hq], rfl⟩
    · rintro ⟨j, q, hq, rfl⟩
      obtain ⟨hj, hq⟩ := hother hq
      exact ⟨⟨j, q, hq, rfl⟩, fun heq => hj (g.exclusive hq hi heq)⟩
  · intro a b q q' hq hq' heq
    exact g.exclusive (hother hq).2 (hother hq').2 heq

end Guarded

end

/-! ## The options -/

section

variable {ι σ : Type} [DecidableEq ι] {h : Host σ}

/-- Whoever has changed options keeps the ones of the start, and the host knows that they were
written.  All options that nobody has changed are those of the start. -/
structure Kept (K : OptionStore h) (start now : σ) (works : ι → Option Work) : Prop where
  saved : ∀ {i work}, works i = some work →
    K.options start work.guard.file work.guard.target = work.guard.saved
  written : ∀ {i work}, works i = some work → K.written now work.guard.file work.guard.target
  same : ∀ {file target}, (∀ i work, works i = some work →
      ¬ (work.guard.file = file ∧ work.guard.target = target)) →
    K.options now file target = K.options start file target

namespace Kept

variable {K : OptionStore h} {start : σ} {works : ι → Option Work} {i : ι} {s s' : Session}
  {w w' : World σ}

/-- A step of a session keeps the options, if no other one has changed those for the target
that it is about. -/
lemma step (k : Kept K start w.host works) (hi : works i = s.phase.work?)
    (m : Session.OptionMove K s w s' w')
    (apart : ∀ {j work c artifact permit}, works j = some work →
      s.phase = .admitted c artifact permit → c.target ≠ work.guard.target)
    (distinct : ∀ {j work work'}, works i = some work → works j = some work' → j ≠ i →
      work.guard.target ≠ work'.guard.target)
    (hwritten : ∀ {file target}, (∀ c artifact permit, s.phase = .admitted c artifact permit →
      c.target ≠ target) → K.written w.host file target → K.written w'.host file target) :
    Kept K start w'.host (Function.update works i s'.phase.work?) := by
  have hkeep : ∀ {j work}, works j = some work →
      K.written w'.host work.guard.file work.guard.target := fun hj =>
    hwritten (fun c artifact permit phase => apart hj phase) (k.written hj)
  cases m with
  | keep work same =>
    rw [work, ← hi, Function.update_eq_self]
    exact ⟨k.saved, hkeep, fun hfree => (same _ _).trans (k.same hfree)⟩
  | change c artifact permit saved phase work read written same =>
    have hnone : works i = none := by rw [hi, phase]; rfl
    -- nobody else has changed these options, so what was read are those of the start
    have hread : K.options start c.file c.target = saved := by
      rw [← read]
      exact (k.same fun j work' hj heq => apart hj phase heq.2.symm).symm
    rw [work]
    constructor
    · intro j work' hj
      rcases update_eq_some hj with ⟨-, hj⟩ | ⟨-, hj⟩
      · rw [← Option.some.inj hj]
        exact hread
      · exact k.saved hj
    · intro j work' hj
      rcases update_eq_some hj with ⟨-, hj⟩ | ⟨-, hj⟩
      · rw [← Option.some.inj hj]
        exact written
      · exact hkeep hj
    · intro file target hfree
      have hself := hfree i _ (Function.update_self ..)
      rw [same file target fun heq => hself ⟨heq.1.symm, heq.2.symm⟩]
      refine k.same fun j work' hj => hfree j work' ?_
      have hji : j ≠ i := by
        rintro rfl
        rw [hnone] at hj
        exact absurd hj (by simp)
      rw [Function.update_of_ne hji, hj]
  | restore work before after back same =>
    have hwork : works i = some work := hi.trans before
    rw [after]
    have hother : ∀ {j work'}, Function.update works i none j = some work' →
        works j = some work' := by
      intro j work' hj
      rcases update_eq_some hj with ⟨-, hj⟩ | ⟨-, hj⟩
      · exact absurd hj (by simp)
      · exact hj
    constructor
    · intro j work' hj
      exact k.saved (hother hj)
    · intro j work' hj
      exact hkeep (hother hj)
    · intro file target hfree
      by_cases hfile : file = work.guard.file ∧ target = work.guard.target
      · rw [hfile.1, hfile.2, back (k.written hwork), k.saved hwork]
      · -- a file that this session has not changed either
        rw [same file target hfile]
        refine k.same fun j work' hj => ?_
        by_cases hji : j = i
        · subst hji
          rw [← Option.some.inj (hwork.symm.trans hj)]
          exact fun heq => hfile ⟨heq.1.symm, heq.2.symm⟩
        · exact hfree j work' (by rw [Function.update_of_ne hji, hj])

end Kept

end

/-! ## Companies -/

/-- Sessions that share a world. -/
structure Company (σ ι : Type) where
  /-- The world that they share. -/
  world : World σ
  /-- The sessions. -/
  session : ι → Session
  /-- What each session has asked the host. -/
  asked : ι → List Exchange
  /-- Whether a step of each session has moved the gate. -/
  movedGate : ι → Bool

namespace Company

variable {ι σ : Type} [DecidableEq ι]

/-- The company after a session has taken a step. -/
def move (h : Host σ) (config : ι → SessionConfig) (i : ι) (C : Company σ ι) : Company σ ι :=
  let next := (C.session i).step h (config i) C.world
  { world := next.2
    session := Function.update C.session i next.1
    asked := Function.update C.asked i (C.asked i ++ C.world.callsSince next.2)
    movedGate := Function.update C.movedGate i (C.movedGate i || next.2.gate != C.world.gate) }

/-- The company after its sessions have taken steps in a given order. -/
def moves (h : Host σ) (config : ι → SessionConfig) : List ι → Company σ ι → Company σ ι
  | [], C => C
  | i :: order, C => moves h config order (C.move h config i)

/-- The company after a session that waits was interrupted. -/
def interrupt (i : ι) (work : Work) (C : Company σ ι) : Company σ ι :=
  let next := (C.session i).interrupt work C.world
  { C with world := next.2, session := Function.update C.session i next.1 }

/-- The companies that can come of new sessions in a world whose gate holds nothing. -/
inductive Reach (h : Host σ) (config : ι → SessionConfig) (K : OptionStore h) (w₀ : World σ) :
    Company σ ι → Prop
  | start {session : ι → Session} (free : w₀.gate.held = [])
      (fresh : ∀ i, (session i).phase = .fresh) :
      Reach h config K w₀ ⟨w₀, session, fun _ => [], fun _ => false⟩
  | move {C : Company σ ι} (i : ι) (r : Reach h config K w₀ C) :
      Reach h config K w₀ (C.move h config i)
  | interrupt {C : Company σ ι} {i : ι} {work : Work} {wait : Wait} (r : Reach h config K w₀ C)
      (phase : (C.session i).phase = .waiting work wait) :
      Reach h config K w₀ (C.interrupt i work)
  | meanwhile {C : Company σ ι} {w : World σ} (r : Reach h config K w₀ C)
      (gate : w.gate = C.world.gate)
      (options : ∀ file target,
        K.options w.host file target = K.options C.world.host file target)
      (written : ∀ file target,
        K.written C.world.host file target → K.written w.host file target) :
      Reach h config K w₀ { C with world := w }

/-- A company goes on as its sessions take steps in a given order. -/
lemma Reach.moves {h : Host σ} {config : ι → SessionConfig} {K : OptionStore h} {w₀ : World σ}
    {C : Company σ ι} (order : List ι) (r : Reach h config K w₀ C) :
    Reach h config K w₀ (C.moves h config order) := by
  induction order generalizing C with
  | nil => exact r
  | cons i order ih => exact ih (r.move i)

/-- A company goes on as one of its sessions takes several steps. -/
lemma Reach.advance {h : Host σ} {config : ι → SessionConfig} {K : OptionStore h} {w₀ : World σ}
    {C : Company σ ι} (i : ι) (n : ℕ) (r : Reach h config K w₀ C) :
    ∃ C', Reach h config K w₀ C' ∧
      C'.world = ((C.session i).advance h (config i) n C.world).2 ∧
      C'.session = Function.update C.session i
        ((C.session i).advance h (config i) n C.world).1 := by
  induction n generalizing C with
  | zero => exact ⟨C, r, rfl, (Function.update_eq_self i C.session).symm⟩
  | succ n ih =>
    rw [Session.advance]
    dsimp only
    split
    · exact ⟨C.move h config i, r.move i, rfl, rfl⟩
    · obtain ⟨C', hC', hworld, hsession⟩ := ih (r.move i)
      have hi : (C.move h config i).session i = ((C.session i).step h (config i) C.world).1 :=
        Function.update_self ..
      rw [hi] at hworld hsession
      exact ⟨C', hC', hworld, hsession.trans (Function.update_idem ..)⟩

/-- A company goes on as one of its sessions is polled. -/
lemma Reach.poll {h : Host σ} {config : ι → SessionConfig} {K : OptionStore h} {w₀ : World σ}
    {C : Company σ ι} (i : ι) (r : Reach h config K w₀ C) :
    ∃ C', Reach h config K w₀ C' ∧
      C'.world = ((C.session i).poll h (config i) C.world).2 ∧
      C'.session = Function.update C.session i ((C.session i).poll h (config i) C.world).1 :=
  r.advance i (C.session i).stepsLeft

/-- What is known of the phases after one session has got another one. -/
lemma update_phase {α : Type} (f : Phase → α) (session : ι → Session) (i : ι) (s : Session) :
    (fun j => f (Function.update session i s j).phase) =
      Function.update (fun j => f (session j).phase) i (f s.phase) :=
  Function.comp_update (fun s : Session => f s.phase) session i s

/-- What holds of all companies that can come of new sessions. -/
structure Sound {h : Host σ} (config : ι → SessionConfig) (K : OptionStore h) (w₀ : World σ)
    (C : Company σ ι) : Prop where
  account : ∀ i, (C.session i).Account (config i) (C.asked i)
  guarded : Guarded C.world.gate.held fun i => (C.session i).phase.permit?
  kept : Kept K w₀.host C.world.host fun i => (C.session i).phase.work?
  pastGate : ∀ i, C.movedGate i = true → (C.session i).phase.PastGate

namespace Sound

variable {h : Host σ} {config : ι → SessionConfig} {K : OptionStore h} {w₀ : World σ}
  {C : Company σ ι} {i j : ι}

omit [DecidableEq ι] in
/-- Who has changed options for a target holds it. -/
lemma permit_of_work (a : C.Sound config K w₀) {work : Work}
    (hi : (C.session i).phase.work? = some work) :
    (C.session i).phase.permit? = some work.permit ∧
      work.permit.key = work.guard.target.gateKey := by
  have hchanged := (a.account i).changed hi
  exact ⟨Phase.permit?_of_work? hi, by rw [hchanged.key, hchanged.target]⟩

omit [DecidableEq ι] in
/-- Who is about to change options for a target holds it. -/
lemma permit_of_admitted (a : C.Sound config K w₀) {c : Capture} {artifact : String}
    {permit : Permit} (hi : (C.session i).phase = .admitted c artifact permit) :
    (C.session i).phase.permit? = some permit ∧ permit.key = c.target.gateKey := by
  have haccount := a.account i
  rw [Session.Account, hi] at haccount
  exact ⟨by rw [hi]; rfl, haccount.2.2.2⟩

lemma move (a : C.Sound config K w₀) (i : ι) : (C.move h config i).Sound config K w₀ := by
  have m := Session.move h (config i) (C.session i) C.world
  have hpermit : (fun j => ((C.move h config i).session j).phase.permit?) =
      Function.update (fun j => (C.session j).phase.permit?) i
        ((C.session i).step h (config i) C.world).1.phase.permit? :=
    update_phase Phase.permit? C.session i _
  have hwork : (fun j => ((C.move h config i).session j).phase.work?) =
      Function.update (fun j => (C.session j).phase.work?) i
        ((C.session i).step h (config i) C.world).1.phase.work? :=
    update_phase Phase.work? C.session i _
  constructor
  · intro j
    by_cases hj : j = i
    · subst hj
      simpa [Company.move] using (a.account j).move m
    · simpa [Company.move, hj] using a.account j
  · rw [hpermit]
    cases m.gateMove with
    | keep permit gate =>
      rw [permit, show (C.move h config i).world.gate = C.world.gate from gate]
      simpa using a.guarded
    | claim c phase free permit gate =>
      rw [permit, show (C.move h config i).world.gate = _ from gate]
      refine a.guarded.claim (by rw [phase]; rfl) ?_
      simpa [Gate.isHeld] using free
    | free permit exit phase next gate =>
      rw [next, exit.permit?_phase, show (C.move h config i).world.gate = _ from gate]
      exact a.guarded.free (by rw [phase]; rfl)
  · rw [hwork]
    refine a.kept.step rfl (m.optionMove K) ?_ ?_ (m.written K)
    · -- a session that is about to change options has no changed ones yet
      intro j work c artifact permit hj phase heq
      obtain ⟨hp, hkey⟩ := a.permit_of_admitted phase
      obtain ⟨hq, hkey'⟩ := a.permit_of_work hj
      obtain rfl := a.guarded.exclusive hp hq (by rw [hkey, hkey', heq])
      rw [phase] at hj
      exact absurd hj (by simp [Phase.work?])
    · intro j work work' hi hj hne heq
      obtain ⟨hp, hkey⟩ := a.permit_of_work hi
      obtain ⟨hq, hkey'⟩ := a.permit_of_work hj
      exact hne (a.guarded.exclusive hq hp (by rw [hkey, hkey', heq]))
  · intro j hmoved
    by_cases hj : j = i
    · subst hj
      simp only [Company.move, Function.update_self, Bool.or_eq_true, bne_iff_ne] at hmoved ⊢
      rcases hmoved with hmoved | hgate
      · exact m.pastGate (a.account j) (a.pastGate j hmoved)
      · exact m.pastGate_of_gate (a.account j) hgate
    · simp only [Company.move, Function.update_of_ne hj] at hmoved ⊢
      exact a.pastGate j hmoved

lemma interrupt (a : C.Sound config K w₀) {work : Work} {wait : Wait}
    (phase : (C.session i).phase = .waiting work wait) :
    (C.interrupt i work).Sound config K w₀ := by
  -- who is interrupted holds what it held while it waited
  have hsame : ∀ {α : Type} (f : Phase → α), f (.stopped work .cancelled) = f (.waiting work wait) →
      (fun j => f ((C.interrupt i work).session j).phase) = fun j => f (C.session j).phase := by
    intro α f hf
    refine (update_phase f C.session i _).trans (Function.update_eq_self_iff.mpr ?_)
    rw [phase]
    exact hf
  have hpermit := hsame Phase.permit? rfl
  have hwork := hsame Phase.work? rfl
  refine ⟨fun j => ?_, by rw [hpermit]; exact a.guarded, by rw [hwork]; exact a.kept,
    fun j hmoved => ?_⟩
  · by_cases hj : j = i
    · subst hj
      simpa [Company.interrupt] using (a.account j).interrupt phase
    · simpa [Company.interrupt, hj] using a.account j
  · by_cases hj : j = i
    · subst hj
      simp only [Company.interrupt, Function.update_self]
      exact trivial
    · simp only [Company.interrupt, Function.update_of_ne hj]
      exact a.pastGate j hmoved

omit [DecidableEq ι] in
lemma meanwhile (a : C.Sound config K w₀) {w : World σ} (gate : w.gate = C.world.gate)
    (options : ∀ file target, K.options w.host file target = K.options C.world.host file target)
    (written : ∀ file target,
      K.written C.world.host file target → K.written w.host file target) :
    Company.Sound config K w₀ { C with world := w } := by
  refine ⟨a.account, ?_, ⟨a.kept.saved, fun hi => written _ _ (a.kept.written hi),
    fun hfree => (options _ _).trans (a.kept.same hfree)⟩, a.pastGate⟩
  rw [show (Company.mk w C.session C.asked C.movedGate).world.gate = C.world.gate from gate]
  exact a.guarded

end Sound

/-- Every company that comes of new sessions is sound. -/
theorem Reach.sound {h : Host σ} {config : ι → SessionConfig} {K : OptionStore h} {w₀ : World σ}
    {C : Company σ ι} (r : Reach h config K w₀ C) : C.Sound config K w₀ := by
  induction r with
  | @start session free fresh =>
    have hpermit : (fun i => (session i).phase.permit?) = fun _ => none := by
      funext i
      rw [fresh i]
      rfl
    have hwork : (fun i => (session i).phase.work?) = fun _ => none := by
      funext i
      rw [fresh i]
      rfl
    refine ⟨fun i => Session.account_start (fresh i), ?_, ?_,
      fun i hmoved => absurd hmoved (by simp)⟩
    · rw [hpermit, free]
      exact .empty
    · rw [hwork]
      exact ⟨by simp, by simp, fun _ => rfl⟩
  | move i r ih => exact ih.move i
  | interrupt r phase ih => exact ih.interrupt phase
  | meanwhile r gate options written ih => exact ih.meanwhile gate options written

/-! ## Sessions keep apart -/

/-- Some exchanges in which options for a target were written once, and no others. -/
def Midway (es : List Exchange) (target : Target) : Prop :=
  ∃ file o r, writes es = [⟨.writeOptions file target o, r⟩]

/-- A session fails since its target was held. -/
def Rejected (s : Session) : Prop :=
  ∃ e, (s.phase = .failing e ∨ s.phase = .ended (.failed e)) ∧ e.kind = .sessionBusy

namespace Sound

variable {h : Host σ} {config : ι → SessionConfig} {K : OptionStore h} {w₀ : World σ}
  {C : Company σ ι} {i j : ι}

omit [DecidableEq ι] in
/-- Who is between the first write for a target and the second one holds the target. -/
lemma permit_of_midway (a : C.Sound config K w₀) {target : Target}
    (hi : Midway (C.asked i) target) :
    ∃ permit, (C.session i).phase.permit? = some permit ∧ permit.key = target.gateKey := by
  obtain ⟨file, o, r, heq⟩ := hi
  have hlength : (writes (C.asked i)).length = 1 := by rw [heq]; rfl
  obtain ⟨work, hwork⟩ := Option.isSome_iff_exists.mp ((a.account i).length_writes.mp hlength)
  have hchanged := (a.account i).changed hwork
  have hcall := congrArg (List.map Exchange.call) (heq.symm.trans hchanged.writes)
  simp only [List.map_cons, List.map_nil, List.cons.injEq, HostCall.writeOptions.injEq] at hcall
  obtain ⟨hp, -⟩ := a.permit_of_work hwork
  exact ⟨work.permit, hp, by rw [hchanged.key, hcall.1.2.1]⟩

omit [DecidableEq ι] in
/-- No two sessions are between their writes for the same target. -/
lemma midway_unique (a : C.Sound config K w₀) {target : Target}
    (hi : Midway (C.asked i) target) (hj : Midway (C.asked j) target) : i = j := by
  obtain ⟨p, hp, hpkey⟩ := a.permit_of_midway hi
  obtain ⟨q, hq, hqkey⟩ := a.permit_of_midway hj
  exact a.guarded.exclusive hp hq (by rw [hpkey, hqkey])

/-- Who writes options for a target in a step holds the target, and keeps the gate. -/
lemma permit_of_write (a : C.Sound config K w₀) {file : String} {target : Target} {o : Options}
    {e : Exchange} (he : e ∈ C.world.callsSince (C.move h config i).world)
    (hcall : e.call = .writeOptions file target o) :
    (C.move h config i).world.gate = C.world.gate ∧
      ∃ permit, (C.session i).phase.permit? = some permit ∧ permit.key = target.gateKey := by
  have m := Session.move h (config i) (C.session i) C.world
  have hwrite : e ∈ writes (C.world.callsSince (C.move h config i).world) := by
    refine List.mem_filter.mpr ⟨he, ?_⟩
    rw [hcall]
    rfl
  constructor
  · have hnil : (C.move h config i).world.log = C.world.log →
        C.world.callsSince (C.move h config i).world = [] := fun hlog =>
      World.callsSince_of_log (by rw [hlog, List.append_nil])
    cases m.gateMove with
    | keep permit gate => exact gate
    | claim c phase free permit gate log => rw [hnil log] at he; exact absurd he (by simp)
    | free permit exit phase next gate log => rw [hnil log] at he; exact absurd he (by simp)
  · cases m.callMove with
    | keep work calls =>
      rw [show writes (C.world.callsSince (C.move h config i).world) = [] from calls] at hwrite
      exact absurd hwrite (by simp)
    | change c artifact permit saved phase work calls =>
      obtain ⟨o', r, rfl⟩ := calls e hwrite
      cases hcall
      exact ⟨permit, a.permit_of_admitted phase⟩
    | attempt c artifact permit saved r phase rank calls =>
      obtain ⟨o', r', rfl⟩ := calls e hwrite
      cases hcall
      exact ⟨permit, a.permit_of_admitted phase⟩
    | restore work r before rank calls =>
      rw [show C.world.callsSince (C.move h config i).world = _ from calls] at he
      obtain rfl := List.mem_singleton.mp he
      cases hcall
      exact ⟨work.permit, a.permit_of_work before⟩

omit [DecidableEq ι] in
/-- A session that was rejected has written no options and never moved the gate. -/
lemma rejected (a : C.Sound config K w₀) (hi : Rejected (C.session i)) :
    writes (C.asked i) = [] ∧ C.movedGate i = false := by
  obtain ⟨e, phase, hbusy⟩ := hi
  have haccount := a.account i
  have hpast : ¬ (C.session i).phase.PastGate := by
    rcases phase with phase | phase <;> rw [phase] <;> exact fun hne => hne hbusy
  -- moving the gate would have brought the session past it
  refine ⟨?_, Bool.eq_false_iff.mpr fun hmoved => hpast (a.pastGate i hmoved)⟩
  have hes : toolExchanges (C.asked i) = [] := by
    rw [Session.Account] at haccount
    rcases phase with phase | phase <;> rw [phase] at haccount <;> exact haccount.2 hbusy
  rw [← writes_toolExchanges, hes, writes_nil]

omit [DecidableEq ι] in
/-- While no session is on its way the gate holds nothing, and all options are those of the
start. -/
lemma settled (a : C.Sound config K w₀)
    (hrest : ∀ i, (C.session i).phase = .fresh ∨ ∃ o, (C.session i).phase = .ended o) :
    C.world.gate.held = [] ∧
      ∀ file target, K.options C.world.host file target = K.options w₀.host file target := by
  have hnone : ∀ i, (C.session i).phase.permit? = none ∧ (C.session i).phase.work? = none := by
    intro i
    rcases hrest i with phase | ⟨o, phase⟩ <;> rw [phase] <;> exact ⟨rfl, rfl⟩
  constructor
  · refine List.eq_nil_iff_forall_not_mem.mpr fun key hkey => ?_
    obtain ⟨i, p, hp, -⟩ := (a.guarded.held_iff key).mp hkey
    rw [(hnone i).1] at hp
    exact absurd hp (by simp)
  · intro file target
    refine a.kept.same fun i work hwork => ?_
    rw [(hnone i).2] at hwork
    exact absurd hwork (by simp)

end Sound

/-- Sessions that share a gate and a host keep apart.  No two of them are between their first
and their second write for the same target.  One that is rejected writes nothing and leaves the
gate as it was.  Whoever writes options holds their target, and keeps it while it does so, and
nobody else is between two writes for it.  And while no session is on its way, the gate
holds nothing and all options are what they were at the start. -/
theorem sessions_keep_apart {h : Host σ} {config : ι → SessionConfig} {K : OptionStore h}
    {w₀ : World σ} {C : Company σ ι} (r : Reach h config K w₀ C) :
    (∀ i j target, Midway (C.asked i) target → Midway (C.asked j) target → i = j) ∧
    (∀ i, Rejected (C.session i) → writes (C.asked i) = [] ∧ C.movedGate i = false) ∧
    (∀ i, ∀ e ∈ C.world.callsSince (C.move h config i).world, ∀ file target o,
      e.call = .writeOptions file target o →
        target.gateKey ∈ C.world.gate.held ∧
        (C.move h config i).world.gate = C.world.gate ∧
        ∀ j, j ≠ i → ¬ Midway (C.asked j) target) ∧
    ((∀ i, (C.session i).phase = .fresh ∨ ∃ o, (C.session i).phase = .ended o) →
      C.world.gate.held = [] ∧
      ∀ file target, K.options C.world.host file target = K.options w₀.host file target) := by
  have a := r.sound
  refine ⟨fun i j target => a.midway_unique, fun i => a.rejected, ?_, a.settled⟩
  intro i e he file target o hcall
  obtain ⟨hgate, p, hp, hkey⟩ := a.permit_of_write he hcall
  refine ⟨(a.guarded.held_iff _).mpr ⟨i, p, hp, hkey⟩, hgate, fun j hj hmidway => hj ?_⟩
  obtain ⟨q, hq, hqkey⟩ := a.permit_of_midway hmidway
  exact a.guarded.exclusive hq hp (by rw [hqkey, hkey])

/-- The target of two sessions. -/
def sharedTarget : Target :=
  ⟨"app", "Debug", "x64"⟩

/-- A host for two sessions that takes over all writes. -/
def sharedHost : Host OptionTable :=
  OptionTable.host (OptionTable.document sharedTarget) fun _ new => (.ok (), new)

/-- The options that this host keeps. -/
def sharedStore : OptionStore sharedHost :=
  OptionTable.store (OptionTable.document sharedTarget) fun _ new => (.ok (), new)

/-- What the first of two sessions holds while it waits. -/
def sharedWork : Work where
  capture := ⟨"main.cpp", sharedTarget, "int main()", some "int main()"⟩
  artifact := "devutils-1.asm"
  guard := ⟨"main.cpp", sharedTarget, {}⟩
  permit := ⟨"app|Debug|x64"⟩

/-- Two new sessions for one target. -/
def rivals : Company OptionTable Bool where
  world := { host := {} }
  session i := { id := if i then "2" else "1", mode := .assembly }
  asked _ := []
  movedGate _ := false

/-- The first session waits, and the second one has been rejected. -/
def met : Company OptionTable Bool :=
  rivals.moves sharedHost (fun _ => { artifactDir := "" })
    [false, false, false, false, false, true, true, true]

/-- The first session was interrupted, and has ended. -/
def parted : Company OptionTable Bool :=
  (met.interrupt false sharedWork).moves sharedHost (fun _ => { artifactDir := "" })
    [false, false, false]

/-- The session that was rejected has written nothing, and once the other one was interrupted,
the target is free and has its options again. -/
theorem rivals_keep_apart :
    Rejected (parted.session true) ∧ writes (parted.asked true) = [] ∧
      (writes (parted.asked false)).length = 2 ∧ parted.world.gate.held = [] ∧
      sharedStore.options parted.world.host "main.cpp" sharedTarget =
        sharedStore.options {} "main.cpp" sharedTarget := by
  have hwaits : (met.session false).phase =
      .waiting sharedWork ⟨sharedTarget, ⟨0⟩, ⟨0⟩, 300000⟩ := by decide +kernel
  have hrivals : Reach sharedHost (fun _ => { artifactDir := "" }) sharedStore { host := {} }
      rivals := Reach.start rfl fun _ => rfl
  have hmet : Reach sharedHost (fun _ => { artifactDir := "" }) sharedStore { host := {} } met :=
    hrivals.moves _
  have hparted : Reach sharedHost (fun _ => { artifactDir := "" }) sharedStore { host := {} }
      parted := (hmet.interrupt hwaits).moves _
  have hrejected : (parted.session true).phase =
      .ended (.failed (.busy sharedTarget)) := by decide +kernel
  have hcancelled : (parted.session false).phase = .ended .cancelled := by decide +kernel
  obtain ⟨-, hwrites, -, hrest⟩ := sessions_keep_apart hparted
  have hbusy : Rejected (parted.session true) := ⟨_, .inr hrejected, rfl⟩
  have hended : ∀ i, (parted.session i).phase = .fresh ∨
      ∃ o, (parted.session i).phase = .ended o := by
    intro i
    cases i with
    | true => exact .inr ⟨_, hrejected⟩
    | false => exact .inr ⟨_, hcancelled⟩
  obtain ⟨hheld, hoptions⟩ := hrest hended
  exact ⟨hbusy, (hwrites true hbusy).1, by decide +kernel, hheld,
    hoptions "main.cpp" sharedTarget⟩

end Company

end BuildLens
