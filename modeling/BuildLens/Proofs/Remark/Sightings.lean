/-
First sightings.

Build output accumulates, so the same remark is found again and again.  The `firstSightings` of
some diagnostics are those whose raw message does not stand further in front, and the `unseen`
ones among some diagnostics are those whose raw message is not that of one seen before.  Then

* `firstSightings_append`: the first sightings of two rows of diagnostics are those of the first
  row, followed by those of the unseen ones among the second row;
* `TaskList.addAll_fresh`: what a task list calls new are the first sightings of the unseen ones;
* `TaskList.addAll_firstSightings`: so a list that has taken in some diagnostics consists of
  their first sightings, in however many portions they came.
-/
import Mathlib.Data.List.Basic
import Mathlib.Tactic.Common
import BuildLens.Remark.TaskList

namespace BuildLens

/-! ## Diagnostics with the raw message of another one -/

/-- Whether one of some diagnostics has the raw message of a given one. -/
def sighted (seen : List Diagnostic) (d : Diagnostic) : Bool :=
  seen.any fun s => s.rawMessage == d.rawMessage

/-- The diagnostics whose raw message is not that of one seen before. -/
def unseen (seen ds : List Diagnostic) : List Diagnostic :=
  ds.filter fun d => !sighted seen d

/-- The diagnostics whose raw message does not stand further in front. -/
def firstSightings (ds : List Diagnostic) : List Diagnostic :=
  ds.eraseDupsBy fun d e => d.rawMessage == e.rawMessage

section

variable {seen as bs ds : List Diagnostic} {d : Diagnostic}

lemma sighted_iff : sighted seen d = true ↔ d.rawMessage ∈ seen.map Diagnostic.rawMessage := by
  simp [sighted]

/-- Only the raw messages of what was seen count. -/
lemma sighted_congr
    (h : ∀ r, r ∈ as.map Diagnostic.rawMessage ↔ r ∈ bs.map Diagnostic.rawMessage) :
    sighted as d = sighted bs d := by
  rw [Bool.eq_iff_iff, sighted_iff, sighted_iff, h]

@[simp] lemma unseen_of_nil (ds : List Diagnostic) : unseen [] ds = ds := by
  simp [unseen, sighted]

@[simp] lemma unseen_nil (seen : List Diagnostic) : unseen seen [] = [] := rfl

lemma unseen_append (seen as bs : List Diagnostic) :
    unseen seen (as ++ bs) = unseen seen as ++ unseen seen bs :=
  List.filter_append ..

/-- What neither of two rows has seen is what the second has not seen of what the first has
not. -/
lemma unseen_unseen (as bs ds : List Diagnostic) :
    unseen bs (unseen as ds) = unseen (as ++ bs) ds := by
  rw [unseen, unseen, unseen, List.filter_filter]
  refine List.filter_congr fun d _ => ?_
  rw [sighted, sighted, sighted, List.any_append, Bool.not_or, Bool.and_comm]

lemma unseen_cons_of_sighted (h : sighted seen d = true) (ds : List Diagnostic) :
    unseen seen (d :: ds) = unseen seen ds := by
  rw [unseen, List.filter_cons_of_neg (by simp [h])]
  rfl

lemma unseen_cons_of_not_sighted (h : sighted seen d = false) (ds : List Diagnostic) :
    unseen seen (d :: ds) = d :: unseen seen ds := by
  rw [unseen, List.filter_cons_of_pos (by simp [h])]
  rfl

lemma unseen_eq_nil (h : ∀ d ∈ ds, d.rawMessage ∈ seen.map Diagnostic.rawMessage) :
    unseen seen ds = [] := by
  rw [unseen, List.filter_eq_nil_iff]
  intro d hd
  simpa using sighted_iff.mpr (h d hd)

/-- Nothing is new the second time. -/
@[simp] lemma unseen_self (ds : List Diagnostic) : unseen ds ds = [] :=
  unseen_eq_nil fun _ hd => List.mem_map_of_mem hd

/-- Diagnostics and the unseen ones among those behind them have the raw messages of all. -/
lemma mem_map_cons_unseen {r : String} (d : Diagnostic) (ds : List Diagnostic) :
    r ∈ (d :: unseen [d] ds).map Diagnostic.rawMessage ↔
      r ∈ (d :: ds).map Diagnostic.rawMessage := by
  rw [List.map_cons, List.map_cons, List.mem_cons, List.mem_cons]
  by_cases hr : r = d.rawMessage
  · simp [hr]
  · simp only [hr, false_or, unseen, List.mem_map, List.mem_filter]
    constructor
    · rintro ⟨e, ⟨he, -⟩, rfl⟩
      exact ⟨e, he, rfl⟩
    · rintro ⟨e, he, rfl⟩
      exact ⟨e, ⟨he, by simpa [sighted] using Ne.symm hr⟩, rfl⟩

/-! ## First sightings -/

@[simp] lemma firstSightings_nil : firstSightings [] = [] := rfl

lemma firstSightings_cons (d : Diagnostic) (ds : List Diagnostic) :
    firstSightings (d :: ds) = d :: firstSightings (unseen [d] ds) := by
  rw [firstSightings, List.eraseDupsBy_cons, firstSightings, unseen]
  refine congrArg (fun l => d :: List.eraseDupsBy _ l) (List.filter_congr fun e _ => ?_)
  rw [sighted, List.any_cons, List.any_nil, Bool.or_false, BEq.comm]
  cases d.rawMessage == e.rawMessage <;> rfl

/-- The recursion of first sightings: behind a diagnostic only the unseen ones count. -/
lemma unseen_induction {P : List Diagnostic → Prop} (nil : P [])
    (cons : ∀ d ds, P (unseen [d] ds) → P (d :: ds)) (ds : List Diagnostic) : P ds := by
  induction hn : ds.length using Nat.strongRecOn generalizing ds with
  | ind n ih =>
    cases ds with
    | nil => exact nil
    | cons d ds =>
      have hle : (unseen [d] ds).length ≤ ds.length := List.length_filter_le ..
      exact cons d ds (ih _ (by rw [← hn]; exact Nat.lt_succ_of_le hle) _ rfl)

/-- First sightings have the raw messages of all diagnostics. -/
lemma mem_map_firstSightings {r : String} (ds : List Diagnostic) :
    r ∈ (firstSightings ds).map Diagnostic.rawMessage ↔ r ∈ ds.map Diagnostic.rawMessage := by
  induction ds using unseen_induction with
  | nil => rfl
  | cons d ds ih =>
    rw [firstSightings_cons, List.map_cons, List.mem_cons, ih, ← List.mem_cons, ← List.map_cons,
      mem_map_cons_unseen]

/-- No raw message is sighted first twice. -/
lemma nodup_firstSightings (ds : List Diagnostic) :
    ((firstSightings ds).map Diagnostic.rawMessage).Nodup := by
  induction ds using unseen_induction with
  | nil => exact List.nodup_nil
  | cons d ds ih =>
    rw [firstSightings_cons, List.map_cons, List.nodup_cons]
    refine ⟨fun hd => ?_, ih⟩
    rw [mem_map_firstSightings] at hd
    obtain ⟨e, he, heq⟩ := List.mem_map.mp hd
    obtain ⟨-, hnew⟩ := List.mem_filter.mp he
    simp [sighted, heq] at hnew

lemma unseen_firstSightings (as ds : List Diagnostic) :
    unseen (firstSightings as) ds = unseen as ds :=
  List.filter_congr fun _ _ => by rw [sighted_congr fun _ => mem_map_firstSightings as]

/-- The first sightings of two rows. -/
theorem firstSightings_append (as bs : List Diagnostic) :
    firstSightings (as ++ bs) = firstSightings as ++ firstSightings (unseen as bs) := by
  induction as using unseen_induction generalizing bs with
  | nil => simp
  | cons d as ih =>
    have hunseen : unseen (d :: unseen [d] as) bs = unseen (d :: as) bs :=
      List.filter_congr fun _ _ => by rw [sighted_congr fun _ => mem_map_cons_unseen d as]
    calc firstSightings (d :: as ++ bs)
        = d :: firstSightings (unseen [d] as ++ unseen [d] bs) := by
          rw [List.cons_append, firstSightings_cons, unseen_append]
      _ = d :: (firstSightings (unseen [d] as) ++
            firstSightings (unseen (d :: unseen [d] as) bs)) := by
          rw [ih, unseen_unseen, List.singleton_append]
      _ = firstSightings (d :: as) ++ firstSightings (unseen (d :: as) bs) := by
          rw [hunseen, firstSightings_cons, List.cons_append]

/-- What was seen before may come again. -/
lemma firstSightings_again (as bs : List Diagnostic) :
    firstSightings (as ++ (as ++ bs)) = firstSightings (as ++ bs) := by
  rw [firstSightings_append, firstSightings_append, unseen_append, unseen_self, List.nil_append]

/-- A row may be seen before in part. -/
lemma firstSightings_of_prefix (h : as <+: bs) :
    firstSightings (as ++ bs) = firstSightings bs := by
  obtain ⟨cs, rfl⟩ := h
  exact firstSightings_again as cs

end

/-! ## Task lists -/

namespace TaskList

/-- What a task list calls new. -/
theorem addAll_fresh (t : TaskList) (ds : List Diagnostic) :
    (t.addAll ds).2 = firstSightings (unseen t.items ds) := by
  induction ds generalizing t with
  | nil => rfl
  | cons d ds ih =>
    rw [addAll]
    cases hd : t.lists d.rawMessage with
    | true => simp [ih, unseen_cons_of_sighted hd]
    | false =>
      have hadd : (t.add d).items = t.items ++ [d] := by simp [add, hd]
      simp only [Bool.false_eq_true, if_false]
      rw [unseen_cons_of_not_sighted hd, firstSightings_cons, unseen_unseen, ← hadd, ← ih]

/-- What a task list calls new is added at its end. -/
theorem addAll_items (t : TaskList) (ds : List Diagnostic) :
    (t.addAll ds).1.items = t.items ++ (t.addAll ds).2 := by
  induction ds generalizing t with
  | nil => exact (List.append_nil _).symm
  | cons d ds ih =>
    rw [addAll]
    cases hd : t.lists d.rawMessage with
    | true => simpa using ih t
    | false =>
      have hadd : (t.add d).items = t.items ++ [d] := by simp [add, hd]
      simpa [hadd] using ih (t.add d)

/-- A list that consists of first sightings still does so when it has taken in others. -/
theorem addAll_firstSightings {t : TaskList} {as : List Diagnostic}
    (ht : t.items = firstSightings as) (bs : List Diagnostic) :
    (t.addAll bs).1.items = firstSightings (as ++ bs) := by
  rw [addAll_items, addAll_fresh, ht, unseen_firstSightings, firstSightings_append]

/-- A list may have taken in a part of the diagnostics before. -/
lemma addAll_of_prefix {t : TaskList} {as bs : List Diagnostic} (ht : t.items = firstSightings as)
    (h : as <+: bs) : (t.addAll bs).1.items = firstSightings bs := by
  rw [addAll_firstSightings ht, firstSightings_of_prefix h]

end TaskList

lemma Remark.extractUnique_eq (f : RemarkFamily) (cs : List Char) :
    Remark.extractUnique f cs = firstSightings (Remark.extract f cs) := by
  have hempty : TaskList.empty.items = firstSightings [] := rfl
  exact TaskList.addAll_firstSightings hempty _

end BuildLens
