/-
What a gate refuses.

Whoever claims a target at a gate gets a permit or is refused, and a permit is given back at some
time.  A `Gate.Ledger` keeps book of this: next to the gate it has the permits that have not been
given back, each with the target that it was claimed for.  All copies of a gate are one gate, so
one ledger does for all of them.

The gate holds exactly the keys of these permits (`Ledger.run_sound`), and so it refuses a target
if and only if one of them has the same key.  A key is made of three names joined by bars.  It
tells a target from all other ones if and only if there is no bar in its names
(`Target.gateKey_injective_iff`), and only then nobody else can stand in its way.
-/
import Mathlib.Data.List.InsertIdx
import Mathlib.Data.List.Nodup
import BuildLens.Session.Gate

namespace BuildLens

/-! ## Keys -/

namespace Target

/-- There is no bar in the names of a target. -/
def IsBarFree (t : Target) : Prop :=
  '|' ∉ t.project.toList ∧ '|' ∉ t.configuration.toList ∧ '|' ∉ t.platform.toList

instance (t : Target) : Decidable t.IsBarFree :=
  inferInstanceAs (Decidable (_ ∧ _ ∧ _))

lemma toList_gateKey (t : Target) : t.gateKey.toList =
    t.project.toList ++ '|' :: (t.configuration.toList ++ '|' :: t.platform.toList) := by
  simp [gateKey, configKey]

/-- What stands in front of the first bar is known, and so is what stands behind it. -/
lemma append_bar_inj {a b c d : List Char} (ha : '|' ∉ a) (hb : '|' ∉ b)
    (h : a ++ '|' :: c = b ++ '|' :: d) : a = b ∧ c = d := by
  have hlength := congrArg (List.idxOf '|') h
  rw [List.idxOf_append_of_notMem ha, List.idxOf_append_of_notMem hb] at hlength
  simp only [List.idxOf_cons_self, Nat.add_zero] at hlength
  obtain ⟨hab, hcd⟩ := List.append_inj h hlength
  exact ⟨hab, List.tail_eq_of_cons_eq hcd⟩

/-- The key of a target without bars is the key of no other one. -/
lemma eq_of_gateKey_eq {t u : Target} (ht : t.IsBarFree) (hkey : u.gateKey = t.gateKey) :
    u = t := by
  have hlist := congrArg String.toList hkey
  rw [toList_gateKey, toList_gateKey] at hlist
  obtain ⟨hproject, hconfiguration, hplatform⟩ := ht
  -- the key has two bars, so there is none left for the names of the other target
  have hcount := congrArg (List.count '|') hlist
  simp only [List.count_append, List.count_cons_self, List.count_eq_zero_of_not_mem hproject,
    List.count_eq_zero_of_not_mem hconfiguration,
    List.count_eq_zero_of_not_mem hplatform] at hcount
  have hproject' : '|' ∉ u.project.toList := List.count_eq_zero.mp (by omega)
  have hconfiguration' : '|' ∉ u.configuration.toList := List.count_eq_zero.mp (by omega)
  obtain ⟨hp, hrest⟩ := append_bar_inj hproject' hproject hlist
  obtain ⟨hc, hf⟩ := append_bar_inj hconfiguration' hconfiguration hrest
  cases u
  cases t
  simp only [String.toList_inj] at hp hc hf
  rw [hp, hc, hf]

/-- A bar in a name can be taken for one of those that join the names. -/
lemma exists_gateKey_eq {t : Target} (ht : ¬ t.IsBarFree) : ∃ u ≠ t, u.gateKey = t.gateKey := by
  have hother : ∀ u : Target, u.gateKey.toList = t.gateKey.toList →
      u.project.toList.length ≠ t.project.toList.length ∨
        u.configuration.toList.length ≠ t.configuration.toList.length →
      ∃ u ≠ t, u.gateKey = t.gateKey := by
    intro u hkey hlength
    refine ⟨u, ?_, String.toList_inj.mp hkey⟩
    rintro rfl
    simp at hlength
  rw [IsBarFree, not_and_or, not_and_or, not_not, not_not, not_not] at ht
  rcases ht with hbar | hbar | hbar
  · obtain ⟨a, b, hab⟩ := List.append_of_mem hbar
    refine hother ⟨.ofList a, .ofList (b ++ '|' :: t.configuration.toList), t.platform⟩ ?_ (.inl ?_)
    · simp [toList_gateKey, hab]
    · simp [hab]
  · obtain ⟨a, b, hab⟩ := List.append_of_mem hbar
    refine hother ⟨.ofList (t.project.toList ++ '|' :: a), .ofList b, t.platform⟩ ?_ (.inl ?_)
    · simp [toList_gateKey, hab]
    · simp
  · obtain ⟨a, b, hab⟩ := List.append_of_mem hbar
    refine hother ⟨t.project, .ofList (t.configuration.toList ++ '|' :: a), .ofList b⟩ ?_ (.inr ?_)
    · simp [toList_gateKey, hab]
    · simp

/-- The key of a target is the key of no other one if and only if there is no bar in its
names. -/
theorem gateKey_injective_iff (t : Target) :
    (∀ u : Target, u.gateKey = t.gateKey → u = t) ↔ t.IsBarFree := by
  constructor
  · intro hinj
    by_contra ht
    obtain ⟨u, hne, hkey⟩ := exists_gateKey_eq ht
    exact hne (hinj u hkey)
  · intro ht u hkey
    exact eq_of_gateKey_eq ht hkey

end Target

/-! ## Ledgers -/

namespace Gate

/-- What somebody does at a gate. -/
inductive Use where
  /-- Claims a target. -/
  | claim (t : Target)
  /-- Gives back one of the permits that are outstanding, if there are enough of them. -/
  | giveBack (n : Nat)

/-- A gate, and the permits that are outstanding, with the targets that they were claimed for. -/
structure Ledger where
  /-- The gate. -/
  gate : Gate := {}
  /-- The permits. -/
  outstanding : List (Target × Permit) := []

namespace Ledger

/-- The ledger after somebody has done something. -/
def after (l : Ledger) : Use → Ledger
  | .claim t =>
    match l.gate.acquire t with
    | .ok (gate, permit) => ⟨gate, (t, permit) :: l.outstanding⟩
    | .error _ => l
  | .giveBack n =>
    match l.outstanding[n]? with
    | some (_, permit) => ⟨l.gate.release permit, l.outstanding.eraseIdx n⟩
    | none => l

/-- The ledger of a new gate after all that was done at it. -/
def run (us : List Use) : Ledger :=
  us.foldl after {}

/-- The gate holds the keys of the outstanding permits, and these are keys of their targets. -/
structure Sound (l : Ledger) : Prop where
  key : ∀ q ∈ l.outstanding, q.2.key = q.1.gateKey
  held : l.gate.held = l.outstanding.map (·.2.key)
  nodup : l.gate.held.Nodup

lemma Sound.isHeld_iff {l : Ledger} (hl : l.Sound) (t : Target) :
    l.gate.isHeld t = true ↔ ∃ q ∈ l.outstanding, q.1.gateKey = t.gateKey := by
  rw [isHeld, List.contains_iff_mem, hl.held, List.mem_map]
  constructor
  · rintro ⟨q, hq, hkey⟩
    exact ⟨q, hq, by rw [← hl.key q hq, hkey]⟩
  · rintro ⟨q, hq, hkey⟩
    exact ⟨q, hq, by rw [hl.key q hq, hkey]⟩

lemma Sound.claim {l : Ledger} (hl : l.Sound) (t : Target) : (l.after (.claim t)).Sound := by
  rw [after, acquire]
  cases hheld : l.gate.isHeld t with
  | true => exact hl
  | false =>
    refine ⟨?_, ?_, ?_⟩
    · intro q hq
      rcases List.mem_cons.mp hq with rfl | hq
      · rfl
      · exact hl.key q hq
    · exact congrArg (t.gateKey :: ·) hl.held
    · exact List.nodup_cons.mpr ⟨by simpa [isHeld] using hheld, hl.nodup⟩

lemma Sound.giveBack {l : Ledger} (hl : l.Sound) (n : Nat) : (l.after (.giveBack n)).Sound := by
  rw [after]
  split
  next t permit hget =>
    obtain ⟨hn, hget⟩ := List.getElem?_eq_some_iff.mp hget
    -- no other permit has the key that is freed
    have hfilter : l.gate.held.filter (· != permit.key) = l.gate.held.eraseIdx n := by
      have hn' : n < l.gate.held.length := by rw [hl.held, List.length_map]; exact hn
      have hkey : l.gate.held[n] = permit.key := by simp only [hl.held, List.getElem_map, hget]
      rw [← hkey, ← hl.nodup.erase_eq_filter, hl.nodup.erase_getElem]
    refine ⟨?_, ?_, ?_⟩
    · intro q hq
      exact hl.key q (List.mem_of_mem_eraseIdx hq)
    · rw [release, hfilter, hl.held, List.eraseIdx_map]
    · rw [release, hfilter]
      exact hl.nodup.eraseIdx n
  next => exact hl

/-- Every ledger of a new gate is sound. -/
theorem run_sound (us : List Use) : (run us).Sound := by
  have hfold : ∀ l : Ledger, l.Sound → (us.foldl after l).Sound := by
    induction us with
    | nil => exact fun l hl => hl
    | cons u us ih =>
      intro l hl
      cases u with
      | claim t => exact ih _ (hl.claim t)
      | giveBack n => exact ih _ (hl.giveBack n)
  exact hfold {} ⟨by simp, rfl, List.nodup_nil⟩

end Ledger

/-- A target is refused if and only if it is held. -/
lemma acquire_eq_error_iff (g : Gate) (t : Target) (e : SessionError) :
    g.acquire t = .error e ↔ g.isHeld t = true ∧ e = .busy t := by
  rw [acquire]
  split
  next hheld => simp [hheld, eq_comm]
  next hheld => simp [hheld]

/-- A permit for a target is outstanding whenever that target is held if and only if there is no
bar in its names. -/
lemma held_for_itself_iff (t : Target) :
    (∀ us, (Ledger.run us).gate.isHeld t = true →
      ∃ permit, (t, permit) ∈ (Ledger.run us).outstanding) ↔ t.IsBarFree := by
  rw [← Target.gateKey_injective_iff]
  constructor
  · intro hitself u hkey
    -- after the other target has been claimed at a new gate, this one is held
    have hheld : (Ledger.run [.claim u]).gate.isHeld t = true := by
      rw [(Ledger.run_sound _).isHeld_iff]
      exact ⟨(u, ⟨u.gateKey⟩), List.mem_singleton.mpr rfl, hkey⟩
    obtain ⟨permit, hpermit⟩ := hitself _ hheld
    exact (Prod.mk.inj (List.mem_singleton.mp hpermit)).1.symm
  · intro hinj us hheld
    obtain ⟨⟨u, permit⟩, hpermit, hkey⟩ := ((Ledger.run_sound us).isHeld_iff t).mp hheld
    obtain rfl := hinj u hkey
    exact ⟨permit, hpermit⟩

/-- Whatever has been done at a gate, a target is held, and refused to whoever claims it, if and
only if a permit is outstanding for a target with the same key.  This is a permit for that very
target, on all occasions, if and only if there is no bar in the names of the target. -/
theorem refused_for_itself_iff (t : Target) :
    (∀ us, ((Ledger.run us).gate.isHeld t = true ↔
        ∃ q ∈ (Ledger.run us).outstanding, q.1.gateKey = t.gateKey) ∧
      ∀ e, (Ledger.run us).gate.acquire t = .error e ↔
        (Ledger.run us).gate.isHeld t = true ∧ e = .busy t) ∧
    ((∀ us, (Ledger.run us).gate.isHeld t = true →
        ∃ permit, (t, permit) ∈ (Ledger.run us).outstanding) ↔ t.IsBarFree) :=
  ⟨fun us => ⟨(Ledger.run_sound us).isHeld_iff t, acquire_eq_error_iff _ t⟩,
    held_for_itself_iff t⟩

/-- A target is refused although the only permit is one for a project and a configuration between
which the bar stands elsewhere. -/
theorem refused_for_another :
    (Ledger.run [.claim ⟨"a|b", "c", "d"⟩]).gate.acquire ⟨"a", "b|c", "d"⟩ =
        .error (.busy ⟨"a", "b|c", "d"⟩) ∧
      (Ledger.run [.claim ⟨"a|b", "c", "d"⟩]).outstanding.map Prod.fst = [⟨"a|b", "c", "d"⟩] ∧
      ¬ ∀ us, (Ledger.run us).gate.isHeld ⟨"a", "b|c", "d"⟩ = true →
        ∃ permit, (⟨"a", "b|c", "d"⟩, permit) ∈ (Ledger.run us).outstanding := by
  refine ⟨by decide +kernel, by decide +kernel, ?_⟩
  rw [held_for_itself_iff]
  decide +kernel

end Gate

end BuildLens
