/-
Looking for the end of a build in a hub.

Events are told apart by their position, counted from the first event that was ever published;
what is published later does not change what stands at a position.  A receiver reads from its own
position on, or from the oldest event that is kept if that one comes later.  This file says
where `Hub.awaitOutcome` stops:

* `Hub.awaitOutcome_found`: at the first event that tells how the build of the project ended, if the
  receiver can notice everything up to it;
* `Hub.awaitOutcome_vain`: otherwise where there are no more events or the allowance is used up.

Events that are no longer kept are the only ones that a receiver skips.
-/
import BuildLens.Hub
import Mathlib.Data.Nat.Find
import Mathlib.Tactic.Common

namespace BuildLens

namespace Hub

open BuildEvent (outcomeOf)

/-- What the event at a position tells about the end of a build, if `tells` says what a single
event does. -/
def told (h : Hub) (tells : BuildEvent → Option Bool) (position : Nat) : Option Bool :=
  (h.event? position).bind tells

/-- The first event from a position on that tells how a build ended. -/
structure First (h : Hub) (tells : BuildEvent → Option Bool) (start position : Nat)
    (success : Bool) : Prop where
  le : start ≤ position
  told_eq : h.told tells position = some success
  none_before : ∀ q, start ≤ q → q < position → h.told tells q = none

/-- The position from which on a receiver reads. -/
def resume (h : Hub) (r : Receiver) : Nat :=
  max r.next h.oldest

/-- How often a receiver is told that it has lost events. -/
def lag (h : Hub) (r : Receiver) : Nat :=
  if r.next < h.oldest then 1 else 0

/-- How much a receiver notices before it gets the event at a position. -/
def backlog (h : Hub) (r : Receiver) (position : Nat) : Nat :=
  h.lag r + (position - h.resume r)

/-! ## Events -/

section

variable {h : Hub} {tells : BuildEvent → Option Bool} {r : Receiver} {n p : Nat} {b : Bool}

lemma event?_eq_none_iff : h.event? p = none ↔ h.count ≤ p := by
  rw [event?]
  split
  next hp =>
    rw [List.getElem?_eq_none_iff, count] at *
    omega
  next hp => simpa using hp

lemma oldest_le_resume : h.oldest ≤ h.resume r :=
  Nat.le_max_right ..

lemma told_of_count_le (tells : BuildEvent → Option Bool) (hp : h.count ≤ p) :
    h.told tells p = none := by
  rw [told, event?_eq_none_iff.mpr hp]
  rfl

/-- What has told how a build ended has been published. -/
lemma First.lt_count (first : h.First tells n p b) : p < h.count := by
  by_contra hp
  have hnone := told_of_count_le tells (not_lt.mp hp)
  rw [first.told_eq] at hnone
  exact absurd hnone (by simp)

/-- There is at most one first event. -/
lemma First.unique {q : Nat} {b' : Bool} (first : h.First tells n p b)
    (first' : h.First tells n q b') : p = q ∧ b = b' := by
  have hpq : p = q := by
    rcases Nat.lt_trichotomy p q with hlt | heq | hlt
    · have hnone := first'.none_before p first.le hlt
      rw [first.told_eq] at hnone
      exact absurd hnone (by simp)
    · exact heq
    · have hnone := first.none_before q first'.le hlt
      rw [first'.told_eq] at hnone
      exact absurd hnone (by simp)
  subst hpq
  exact ⟨rfl, Option.some.inj (first.told_eq.symm.trans first'.told_eq)⟩

/-- The first event from a position on is the first one from any later position on that is not
behind it. -/
lemma First.later {m : Nat} (first : h.First tells n p b) (hn : n ≤ m) (hp : m ≤ p) :
    h.First tells m p b :=
  ⟨hp, first.told_eq, fun q hq => first.none_before q (Nat.le_trans hn hq)⟩

/-- Either some first event tells how the build ended, or no event does. -/
lemma first_or_none (h : Hub) (tells : BuildEvent → Option Bool) (n : Nat) :
    (∃ p b, h.First tells n p b) ∨ ∀ q, n ≤ q → h.told tells q = none := by
  by_cases hex : ∃ q, n ≤ q ∧ (h.told tells q).isSome = true
  · left
    obtain ⟨hle, hsome⟩ := Nat.find_spec hex
    obtain ⟨b, hb⟩ := Option.isSome_iff_exists.mp hsome
    refine ⟨Nat.find hex, b, hle, hb, fun q hq hlt => ?_⟩
    have hmin := Nat.find_min hex hlt
    rw [not_and, Option.not_isSome_iff_eq_none] at hmin
    exact hmin hq
  · right
    intro q hq
    by_contra hne
    exact hex ⟨q, hq, Option.isSome_iff_ne_none.mpr hne⟩

/-! ## Publishing -/

/-- A hub after further events. -/
structure Grows (h h' : Hub) : Prop where
  capacity : h'.capacity = h.capacity
  published : ∃ new, h'.published = new ++ h.published

namespace Grows

variable {h' h'' : Hub}

lemma refl (h : Hub) : h.Grows h :=
  ⟨rfl, [], rfl⟩

lemma trans (g : h.Grows h') (g' : h'.Grows h'') : h.Grows h'' := by
  obtain ⟨new, hnew⟩ := g.published
  obtain ⟨new', hnew'⟩ := g'.published
  exact ⟨g'.capacity.trans g.capacity, new' ++ new, by rw [hnew', hnew, List.append_assoc]⟩

lemma count_le (g : h.Grows h') : h.count ≤ h'.count := by
  obtain ⟨new, hnew⟩ := g.published
  rw [count, count, hnew, List.length_append]
  omega

lemma oldest_le (g : h.Grows h') : h.oldest ≤ h'.oldest := by
  have hcount := g.count_le
  rw [oldest, oldest, g.capacity]
  omega

/-- What stands at a position stays there. -/
lemma event?_eq (g : h.Grows h') (hp : p < h.count) : h'.event? p = h.event? p := by
  have hcount := g.count_le
  obtain ⟨new, hnew⟩ := g.published
  have hlength : h'.count = new.length + h.count := by
    rw [count, hnew, List.length_append, count]
  rw [event?, event?, if_pos hp, if_pos (by omega), hnew,
    List.getElem?_append_right (by omega)]
  congr 1
  omega

lemma told_eq (g : h.Grows h') (hp : p < h.count) : h'.told tells p = h.told tells p := by
  rw [told, told, g.event?_eq hp]

/-- Later events do not come first. -/
lemma first (g : h.Grows h') (first : h.First tells n p b) : h'.First tells n p b := by
  have hlt := first.lt_count
  refine ⟨first.le, (g.told_eq hlt).trans first.told_eq, fun q hq hqp => ?_⟩
  exact (g.told_eq (by omega)).trans (first.none_before q hq hqp)

end Grows

/-! ## Reading -/

variable {project : String}

/-- A receiver that has not lost anything takes the next event. -/
lemma receive_of_oldest_le (hr : h.oldest ≤ r.next) :
    h.receive r = match h.event? r.next with
      | none => (.empty, r)
      | some e => (.event e, ⟨r.next + 1⟩) := by
  have hkept : ¬ r.next < h.oldest := not_lt.mpr hr
  cases hevent : h.event? r.next with
  | none => simp only [receive, if_neg hkept, hevent]
  | some e => simp only [receive, if_neg hkept, hevent]

/-- Reading stops at the first event that tells how the build ended, if the receiver may
notice so much. -/
lemma awaitOutcome_found_of_oldest_le {allowance : Nat} (hn : h.oldest ≤ n)
    (first : h.First (outcomeOf project) n p b) (hp : p - n < allowance) :
    h.awaitOutcome project allowance ⟨n⟩ = (some b, ⟨p + 1⟩, allowance - (p - n) - 1) := by
  -- each event that is read takes the receiver one position on and costs one of the allowance
  induction allowance generalizing n with
  | zero => omega
  | succ allowance ih =>
    have hle := first.le
    have hlt := first.lt_count
    rw [awaitOutcome, receive_of_oldest_le hn]
    cases hevent : h.event? n with
    | none =>
      rw [event?_eq_none_iff] at hevent
      omega
    | some e =>
      rcases Nat.eq_or_lt_of_le hle with rfl | hnp
      · have houtcome : e.outcomeOf project = some b := by
          simpa [told, hevent] using first.told_eq
        simp only [houtcome]
        rw [show allowance + 1 - (n - n) - 1 = allowance by omega]
      · have houtcome : e.outcomeOf project = none := by
          simpa [told, hevent] using first.none_before n (Nat.le_refl n) hnp
        simp only [houtcome]
        rw [ih (by omega) (first.later (by omega) hnp) (by omega),
          show allowance + 1 - (p - n) - 1 = allowance - (p - (n + 1)) - 1 by omega]

/-- Reading goes on to the last event, or until the receiver may notice no more, if there is no
event that tells how the build ended. -/
lemma awaitOutcome_vain_of_oldest_le {allowance : Nat} (hn : h.oldest ≤ n)
    (hnone : ∀ q, n ≤ q → q < n + allowance → h.told (outcomeOf project) q = none) :
    h.awaitOutcome project allowance ⟨n⟩ =
      (none, ⟨n + min allowance (h.count - n)⟩, allowance - min allowance (h.count - n)) := by
  induction allowance generalizing n with
  | zero => simp [awaitOutcome]
  | succ allowance ih =>
    rw [awaitOutcome, receive_of_oldest_le hn]
    cases hevent : h.event? n with
    | none =>
      rw [event?_eq_none_iff] at hevent
      simp [Nat.sub_eq_zero_of_le hevent]
    | some e =>
      -- an event that tells nothing, so reading goes on behind it
      have houtcome : e.outcomeOf project = none := by
        simpa [told, hevent] using hnone n (Nat.le_refl n) (by omega)
      have hlt : n < h.count := by
        by_contra hle
        rw [event?_eq_none_iff.mpr (by omega)] at hevent
        exact absurd hevent (by simp)
      simp only [houtcome]
      rw [ih (by omega) fun q hq hlt => hnone q (by omega) (by omega)]
      rw [show n + 1 + min allowance (h.count - (n + 1)) = n + min (allowance + 1) (h.count - n) by
          omega,
        show allowance - min allowance (h.count - (n + 1)) =
          allowance + 1 - min (allowance + 1) (h.count - n) by omega]

/-- A receiver that has lost events is told so first, and goes on with the oldest one that is
kept. -/
lemma awaitOutcome_resume {allowance : Nat} (hlag : h.lag r ≤ allowance) :
    h.awaitOutcome project allowance r =
      h.awaitOutcome project (allowance - h.lag r) ⟨h.resume r⟩ := by
  rw [lag, resume] at *
  by_cases hlost : r.next < h.oldest
  · -- the notice of the loss costs one, and nothing is lost after it
    rw [if_pos hlost] at hlag ⊢
    obtain ⟨left, rfl⟩ := Nat.exists_eq_add_of_le' hlag
    rw [awaitOutcome, receive, if_pos hlost, Nat.max_eq_right (Nat.le_of_lt hlost)]
    rfl
  · rw [if_neg hlost, Nat.max_eq_left (by omega)]
    rfl

/-- Reading stops at the first event that tells how the build ended, if the receiver may
notice so much. -/
theorem awaitOutcome_found {allowance : Nat}
    (first : h.First (outcomeOf project) (h.resume r) p b) (hp : h.backlog r p < allowance) :
    h.awaitOutcome project allowance r = (some b, ⟨p + 1⟩, allowance - h.backlog r p - 1) := by
  rw [backlog] at hp ⊢
  rw [awaitOutcome_resume (by omega),
    awaitOutcome_found_of_oldest_le oldest_le_resume first (by omega),
    show allowance - h.lag r - (p - h.resume r) - 1 =
      allowance - (h.lag r + (p - h.resume r)) - 1 by omega]

/-- Otherwise reading goes on to the last event, or until the receiver may notice no more. -/
theorem awaitOutcome_vain {allowance : Nat} (hlag : h.lag r ≤ allowance)
    (hnone : ∀ p b, h.First (outcomeOf project) (h.resume r) p b → allowance ≤ h.backlog r p) :
    h.awaitOutcome project allowance r =
      (none, ⟨h.resume r + min (allowance - h.lag r) (h.count - h.resume r)⟩,
        allowance - h.lag r - min (allowance - h.lag r) (h.count - h.resume r)) := by
  rw [awaitOutcome_resume hlag]
  refine awaitOutcome_vain_of_oldest_le oldest_le_resume fun q hq hlt => ?_
  rcases first_or_none h (outcomeOf project) (h.resume r) with ⟨p, b, first⟩ | hno
  · have hp := hnone p b first
    rw [backlog] at hp
    exact first.none_before q hq (by omega)
  · exact hno q hq

end

end Hub

end BuildLens
