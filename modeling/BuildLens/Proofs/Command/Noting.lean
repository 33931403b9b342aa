/-
Taking note of what is given on a level of a command line.

Items are noted one after the other (`Reading.note`, `Reading.gather`).  What comes of them is told
by the items as a whole: the values are theirs, and the verbosity is how often more output was asked
for (`Reading.gather_eq`).  No option is given twice (`Reading.ne_of_gather`).  To ask once more for
output is never a mistake, and changes nothing but the verbosity (`Reading.gather_of_asksOnceMore`).
-/
import BuildLens.Proofs.Command.Spelling
import BuildLens.Proofs.Files.Tree

namespace BuildLens

namespace Reading

variable {r r' r₀ : Reading} {o : CommandOption} {v name : String} {s : Switch} {i : Item}
  {is is' js : List Item}

/-! ## Judging values -/

lemma has_eq_any (r : Reading) (name : String) :
    r.has name = r.values.any fun p => p.1.name == name := by
  rw [has, value?, Option.isSome_map, List.isSome_find?]

lemma accept_eq_ok_iff : r.accept o v = .ok r' ↔
    r.has o.name = false ∧ o.kind.objection? v = none ∧
      r' = { r with values := r.values ++ [(o, v)] } := by
  rw [accept]
  cases r.has o.name <;> cases o.kind.objection? v <;> simp [eq_comm]

lemma settle_of_pending (hr : r.pending = none) : r.settle = .ok r := by
  rw [settle, hr]

/-- What is judged gets a value at most. -/
lemma exists_values_of_settle (h : r.settle = .ok r₀) :
    ∃ vs, r₀ = { r with values := r.values ++ vs, pending := none } := by
  rw [settle] at h
  split at h
  next hr =>
    cases h
    exact ⟨[], by rw [List.append_nil, ← hr]⟩
  next => contradiction
  next =>
    obtain ⟨-, -, rfl⟩ := accept_eq_ok_iff.mp h
    exact ⟨_, rfl⟩

lemma pending_of_settle (h : r.settle = .ok r₀) : r₀.pending = none := by
  obtain ⟨vs, rfl⟩ := exists_values_of_settle h
  rfl

/-- What is judged is not judged again. -/
lemma settle_of_settle (h : r.settle = .ok r₀) : r₀.settle = .ok r₀ :=
  settle_of_pending (pending_of_settle h)

/-- Once the option that was met last is judged, it is among those that have a value. -/
lemma meets_of_settle (h : r.settle = .ok r₀) (name : String) : r.meets name = r₀.has name := by
  rw [meets]
  rcases hr : r.pending with _ | ⟨o, _ | v⟩
  · obtain rfl := Except.ok.inj ((settle_of_pending hr).symm.trans h)
    simp
  · rw [settle, hr] at h
    contradiction
  · rw [settle, hr] at h
    obtain ⟨-, -, rfl⟩ := accept_eq_ok_iff.mp h
    simp [has_eq_any]

/-! ## Items -/

/-- Takes note of an item. -/
def note (r : Reading) : Item → Except UsageError Reading
  | .switch s => r.turn s
  | .value o v => r.take o v

/-- Takes note of some items. -/
def gather (r : Reading) (is : List Item) : Except UsageError Reading :=
  is.foldlM note r

/-- A reading after more output was asked for once more. -/
def louder (r : Reading) : Reading :=
  { r with verbosity := min (r.verbosity + 1) maxVerbosity }

/-- What was met before an item is judged before the item is noted. -/
lemma note_eq_bind (r : Reading) (i : Item) : r.note i = r.settle >>= fun r₀ => r₀.note i := by
  cases h : r.settle with
  | error e => cases i <;> simp [note, turn, take, h, bind, Except.bind]
  | ok r₀ =>
    cases i <;> simp [note, turn, take, h, settle_of_settle h, bind, Except.bind]

lemma note_eq_ok_iff : r.note i = .ok r' ↔ ∃ r₀, r.settle = .ok r₀ ∧ r₀.note i = .ok r' := by
  rw [note_eq_bind, bind_eq_ok_iff]

/-- Of the switches only the one that asks for more output lets the reading go on. -/
lemma note_switch_iff (hr : r.pending = none) :
    r.note (.switch s) = .ok r' ↔ s = .verbose ∧ r' = r.louder := by
  rw [note, turn, settle_of_pending hr]
  cases s <;> simp [louder, bind, Except.bind, pure, Except.pure, eq_comm]

lemma note_value (hr : r.pending = none) (o : CommandOption) (v : String) :
    r.note (.value o v) = r.accept o v := by
  rw [note, take, settle_of_pending hr]
  rfl

lemma pending_of_note (h : r.note i = .ok r') : r'.pending = none := by
  obtain ⟨r₀, hsettle, hnote⟩ := note_eq_ok_iff.mp h
  have hpending := pending_of_settle hsettle
  cases i with
  | switch s =>
    obtain ⟨-, rfl⟩ := (note_switch_iff hpending).mp hnote
    exact hpending
  | value o v =>
    rw [note_value hpending] at hnote
    obtain ⟨-, -, rfl⟩ := accept_eq_ok_iff.mp hnote
    exact hpending

lemma gather_nil (r : Reading) : r.gather [] = .ok r :=
  rfl

lemma gather_cons_iff :
    r.gather (i :: is) = .ok r' ↔ ∃ r₀, r.note i = .ok r₀ ∧ r₀.gather is = .ok r' := by
  rw [gather, List.foldlM_cons, bind_eq_ok_iff]
  rfl

lemma gather_append_iff :
    r.gather (is ++ js) = .ok r' ↔ ∃ r₀, r.gather is = .ok r₀ ∧ r₀.gather js = .ok r' := by
  rw [gather, List.foldlM_append, bind_eq_ok_iff]
  rfl

lemma gather_singleton (r : Reading) (i : Item) : r.gather [i] = r.note i := by
  rw [gather, List.foldlM_cons]
  cases r.note i <;> rfl

/-! ## What comes of items -/

/-- The option or the operand of an item, with its value. -/
def setting? : Item → Option (CommandOption × String)
  | .switch _ => none
  | .value o v => some (o, v)

/-- The values are those of the items, and the verbosity is how often they ask for more output. -/
lemma gather_eq (hr : r.pending = none) (hverbosity : r.verbosity ≤ maxVerbosity)
    (h : r.gather is = .ok r') :
    r' =
      { values := r.values ++ is.filterMap setting?
        verbosity := min (r.verbosity + asked is) maxVerbosity
        pending := none } := by
  induction is generalizing r with
  | nil =>
    cases h
    simp [asked, hverbosity, ← hr]
  | cons i is ih =>
    obtain ⟨r₀, hnote, hgather⟩ := gather_cons_iff.mp h
    have hpending := pending_of_note hnote
    cases i with
    | switch s =>
      obtain ⟨rfl, rfl⟩ := (note_switch_iff hr).mp hnote
      have hcount : min (min (r.verbosity + 1) maxVerbosity + asked is) maxVerbosity =
          min (r.verbosity + asked (.switch .verbose :: is)) maxVerbosity := by
        rw [asked, asked, List.count_cons_self]
        omega
      rw [ih hpending (Nat.min_le_right _ _) hgather, ← hcount]
      rfl
    | value o v =>
      rw [note_value hr] at hnote
      obtain ⟨-, -, rfl⟩ := accept_eq_ok_iff.mp hnote
      rw [ih hpending hverbosity hgather, asked, asked, List.count_cons_of_ne (by simp)]
      simp [setting?]

/-- No option is given twice. -/
lemma nodup_of_gather (hr : r.pending = none) (hnodup : (r.values.map (·.1.name)).Nodup)
    (h : r.gather is = .ok r') : (r'.values.map (·.1.name)).Nodup := by
  induction is generalizing r with
  | nil =>
    cases h
    exact hnodup
  | cons i is ih =>
    obtain ⟨r₀, hnote, hgather⟩ := gather_cons_iff.mp h
    refine ih (pending_of_note hnote) ?_ hgather
    cases i with
    | switch s =>
      obtain ⟨-, rfl⟩ := (note_switch_iff hr).mp hnote
      exact hnodup
    | value o v =>
      rw [note_value hr] at hnote
      obtain ⟨hhas, -, rfl⟩ := accept_eq_ok_iff.mp hnote
      have hfresh : o.name ∉ r.values.map (·.1.name) := by
        rw [has_eq_any] at hhas
        simpa using hhas
      rw [List.map_append, List.map_singleton, List.nodup_append_comm]
      exact List.nodup_cons.mpr ⟨hfresh, hnodup⟩

/-- What is given once is not given again. -/
lemma ne_of_gather (h : gather {} (is ++ .value o v :: js) = .ok r') {o' : CommandOption}
    {v' : String} (hmem : .value o' v' ∈ is ++ js) : o'.name ≠ o.name := by
  have hnodup := nodup_of_gather rfl (by simp) h
  rw [gather_eq rfl (Nat.zero_le _) h, List.nil_append, List.filterMap_append, List.map_append,
    List.filterMap_cons_some (by rfl), List.map_cons, List.nodup_middle, List.nodup_cons,
    ← List.map_append, ← List.filterMap_append] at hnodup
  intro hname
  exact hnodup.1 (List.mem_map.mpr ⟨(o', v'), List.mem_filterMap.mpr ⟨_, hmem, rfl⟩, hname⟩)

lemma gather_louder (hr : r.pending = none) (h : r.gather is = .ok r') :
    r.louder.gather is = .ok r'.louder := by
  induction is generalizing r with
  | nil =>
    cases h
    rfl
  | cons i is ih =>
    obtain ⟨r₀, hnote, hgather⟩ := gather_cons_iff.mp h
    have hlouder : r.louder.pending = none := hr
    refine gather_cons_iff.mpr ⟨r₀.louder, ?_, ih (pending_of_note hnote) hgather⟩
    cases i with
    | switch s =>
      obtain ⟨rfl, rfl⟩ := (note_switch_iff hr).mp hnote
      exact (note_switch_iff hlouder).mpr ⟨rfl, rfl⟩
    | value o v =>
      rw [note_value hr] at hnote
      rw [note_value hlouder]
      obtain ⟨hhas, hobjection, rfl⟩ := accept_eq_ok_iff.mp hnote
      exact accept_eq_ok_iff.mpr ⟨hhas, hobjection, rfl⟩

/-- Items that are noted are noted as well with one switch more that asks for output. -/
lemma gather_of_asksOnceMore (h : AsksOnceMore is is') (hgather : gather {} is = .ok r) :
    gather {} is' = .ok r.louder := by
  obtain ⟨js, ks, rfl, rfl⟩ := h
  obtain ⟨r₀, hjs, hks⟩ := gather_append_iff.mp hgather
  have hpending : r₀.pending = none := by rw [gather_eq rfl (Nat.zero_le _) hjs]
  exact gather_append_iff.mpr ⟨r₀, hjs, gather_cons_iff.mpr
    ⟨r₀.louder, (note_switch_iff hpending).mpr ⟨rfl, rfl⟩, gather_louder hpending hks⟩⟩

/-! ## Values of the environment -/

variable {env : Environment} {os : List CommandOption}

/-- The environment adds values of the listed options. -/
lemma exists_values_of_fillIn (h : r.fillIn env os = .ok r') :
    ∃ vs, r' = { r with values := r.values ++ vs } ∧ ∀ p ∈ vs, p.1 ∈ os := by
  induction os generalizing r with
  | nil =>
    cases h
    exact ⟨[], by simp, by simp⟩
  | cons o os ih =>
    rw [fillIn] at h
    split at h
    next =>
      obtain ⟨vs, rfl, hvs⟩ := ih h
      exact ⟨vs, rfl, fun p hp => List.mem_cons_of_mem _ (hvs p hp)⟩
    next =>
      split at h
      next =>
        obtain ⟨vs, rfl, hvs⟩ := ih h
        exact ⟨vs, rfl, fun p hp => List.mem_cons_of_mem _ (hvs p hp)⟩
      next v _ =>
        obtain ⟨r₀, haccept, hfill⟩ := bind_eq_ok_iff.mp h
        obtain ⟨-, -, rfl⟩ := accept_eq_ok_iff.mp haccept
        obtain ⟨vs, rfl, hvs⟩ := ih hfill
        refine ⟨(o, v) :: vs, by simp, fun p hp => ?_⟩
        obtain rfl | hp := List.mem_cons.mp hp
        · exact List.mem_cons_self
        · exact List.mem_cons_of_mem _ (hvs p hp)

lemma fillIn_louder (h : r.fillIn env os = .ok r') :
    r.louder.fillIn env os = .ok r'.louder := by
  induction os generalizing r with
  | nil =>
    cases h
    rfl
  | cons o os ih =>
    have hhas : r.louder.has o.name = r.has o.name := rfl
    rw [fillIn] at h ⊢
    rw [hhas]
    split at h
    next hr => rw [if_pos hr, ih h]
    next hr =>
      rw [if_neg hr]
      split at h
      next => exact ih h
      next v _ =>
        obtain ⟨r₀, haccept, hfill⟩ := bind_eq_ok_iff.mp h
        obtain ⟨-, hobjection, rfl⟩ := accept_eq_ok_iff.mp haccept
        exact bind_eq_ok_iff.mpr
          ⟨_, accept_eq_ok_iff.mpr ⟨hhas.trans (by simpa using hr), hobjection, rfl⟩, ih hfill⟩

/-- A value that the environment does not give is that of an item. -/
lemma exists_item_of_value? (hr : r.values = is.filterMap setting?)
    (h : r.fillIn env os = .ok r') (hname : ∀ o ∈ os, o.name ≠ name)
    (hvalue : r'.value? name = some v) : ∃ o v', .value o v' ∈ is ∧ o.name = name := by
  obtain ⟨vs, rfl, hvs⟩ := exists_values_of_fillIn h
  obtain ⟨⟨o, v'⟩, hfind, -⟩ := Option.map_eq_some_iff.mp hvalue
  have honame : o.name = name := by simpa using List.find?_some hfind
  obtain hmem | hmem := List.mem_append.mp (List.mem_of_find?_eq_some hfind)
  · rw [hr] at hmem
    obtain ⟨i, hi, hsetting⟩ := List.mem_filterMap.mp hmem
    cases i with
    | switch => contradiction
    | value =>
      cases hsetting
      exact ⟨o, v', hi, honame⟩
  · exact absurd honame (hname o (hvs _ hmem))

end Reading

end BuildLens
