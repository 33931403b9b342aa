/-
How a wait is decided.

A session that waits for the build of a project watches the events, the abandonments and the clock.
A `verdict` weighs the three: the first event about the end of the build counts before an
abandonment, and that before the time.  `Wait.look_of_unhurried` says that a look comes to the
verdict about all that the session has not noticed yet, if it may notice all of it.

On a course (`Wait.Course`) nothing else matters for the verdict than what has come since the start
of the build, so a look comes to the same verdict as if all of that were still ahead
(`Wait.ends_by_verdict`).
-/
import BuildLens.Proofs.Waiting

namespace BuildLens

open BuildEvent (outcomeOf)

/-! ## What a receiver can still get -/

namespace Hub

variable {h : Hub} {r : Receiver} {tells : BuildEvent → Option Bool} {b : Bool}

lemma getElem?_readable (h : Hub) (r : Receiver) (i : Nat) :
    (h.readable r)[i]? = h.event? (h.resume r + i) := by
  have hlength : (h.published.take (h.count - h.resume r)).length = h.count - h.resume r := by
    rw [List.length_take, count]
    omega
  rw [readable, ← resume]
  by_cases hi : h.resume r + i < h.count
  · rw [List.getElem?_reverse (by omega), hlength, event?, if_pos hi,
      List.getElem?_take_of_lt (by omega)]
    congr 1
    omega
  · rw [event?, if_neg hi, List.getElem?_eq_none_iff, List.length_reverse, hlength]
    omega

/-- What the first event that can be read tells is what the first event in the hub does. -/
lemma findSome?_readable_eq_some_iff :
    (h.readable r).findSome? tells = some b ↔ ∃ p, h.First tells (h.resume r) p b := by
  have hfound : ∀ b, (h.readable r).findSome? tells = some b →
      ∃ p, h.First tells (h.resume r) p b := by
    intro b hb
    obtain ⟨before, e, behind, hsplit, he, hnone⟩ := List.findSome?_eq_some_iff.mp hb
    refine ⟨h.resume r + before.length, Nat.le_add_right _ _, ?_, fun q hq hlt => ?_⟩
    · rw [told, ← getElem?_readable, hsplit, List.getElem?_append_right (Nat.le_refl _),
        Nat.sub_self]
      exact he
    · obtain ⟨i, rfl⟩ := Nat.exists_eq_add_of_le hq
      have hi : i < before.length := by omega
      rw [told, ← getElem?_readable, hsplit, List.getElem?_append_left hi,
        List.getElem?_eq_getElem hi]
      exact hnone _ (List.getElem_mem hi)
  refine ⟨hfound b, ?_⟩
  rintro ⟨p, first⟩
  cases hb : (h.readable r).findSome? tells with
  | some b' =>
    obtain ⟨q, first'⟩ := hfound b' hb
    rw [(first.unique first').2]
  | none =>
    -- the event that tells is one of those that can be read
    obtain ⟨i, rfl⟩ := Nat.exists_eq_add_of_le first.le
    obtain ⟨e, he, htells⟩ := Option.bind_eq_some_iff.mp first.told_eq
    rw [← getElem?_readable] at he
    rw [List.findSome?_eq_none_iff.mp hb e (List.mem_of_getElem? he)] at htells
    exact absurd htells (by simp)

/-- A receiver from before some events can still get the last ones of them. -/
lemma readable_of_published {h₀ : Hub} {new : List BuildEvent}
    (hnew : h.published = new ++ h₀.published) :
    h.readable ⟨h₀.count⟩ = (new.take h.capacity).reverse := by
  have hcount : h.count = new.length + h₀.count := by
    rw [count, hnew, List.length_append, count]
  have hkept : h.count - max h₀.count h.oldest = min h.capacity new.length := by
    rw [oldest]
    omega
  have htake : new.take (min h.capacity new.length) = new.take h.capacity :=
    List.take_eq_take_iff.mpr (by omega)
  rw [readable, hkept, hnew, List.take_append_of_le_length (Nat.min_le_right _ _), htake]

end Hub

/-! ## Verdicts -/

namespace Wait

/-- How a wait for the build of a target ends in view of some events, of an abandonment and of the
end of its time, if it ends. -/
def verdict (seconds : Nat) (target : Target) (events : List BuildEvent)
    (abandoned overdue : Bool) : Option (Except SessionError Bool) :=
  match events.findSome? (outcomeOf target.project) with
  | some success => some (.ok success)
  | none =>
    if abandoned then some (.error (.buildAbandoned target))
    else if overdue then some (.error (.timedOut seconds target))
    else none

variable {σ : Type} {w : World σ} {wait : Wait}

/-- The session may notice everything that there is. -/
def Unhurried (wait : Wait) (w : World σ) : Prop :=
  w.hub.backlog wait.receiver w.hub.count < w.allowance

/-- A look comes to the verdict about what the session has not noticed yet. -/
lemma look_of_unhurried (unhurried : wait.Unhurried w) (seconds : Nat) :
    (wait.look w seconds).1 =
      verdict seconds wait.target (w.hub.readable wait.receiver)
        (w.hub.changed wait.watcher) (wait.deadline ≤ w.clock) := by
  rw [Unhurried, Hub.backlog] at unhurried
  rw [verdict]
  cases hevents : (w.hub.readable wait.receiver).findSome? (outcomeOf wait.target.project) with
  | some b =>
    obtain ⟨p, first⟩ := Hub.findSome?_readable_eq_some_iff.mp hevents
    have hlt := first.lt_count
    have hends : EndsAt wait w seconds p b := .of_first first (by rw [Hub.backlog]; omega)
    exact hends.ok
  | none =>
    have unnoticed : wait.Unnoticed w := by
      intro p b first
      rw [Hub.findSome?_readable_eq_some_iff.mpr ⟨p, first⟩] at hevents
      exact absurd hevents (by simp)
    -- all events are read in vain, and something is left of the allowance
    rw [(look_vain (by omega) unnoticed).2, giveUp]
    by_cases habandoned : w.hub.changed wait.watcher
    · rw [if_pos ⟨by dsimp only; omega, habandoned⟩, if_pos habandoned]
      rfl
    · rw [if_neg fun h => habandoned h.2, if_neg habandoned]
      by_cases hoverdue : wait.deadline ≤ w.clock
      · rw [if_pos hoverdue, if_pos (by simpa using hoverdue)]
        rfl
      · rw [if_neg hoverdue, if_neg (by simpa using hoverdue)]
        rfl

/-! ## Verdicts on a course -/

section

variable {h : Host σ} {config : SessionConfig} {target : Target} {w₀ : World σ}

/-- A look changes nothing of a wait but where its receiver stands. -/
lemma look_wait (w : World σ) (seconds : Nat) (wait : Wait) :
    (wait.look w seconds).2.1 = { wait with receiver := (wait.look w seconds).2.1.receiver } := by
  rw [look]
  split
  · rfl
  · dsimp only
    split <;> rfl

lemma start_answer (h : Host σ) (config : SessionConfig) (target : Target) (w₀ : World σ) :
    (Wait.start h config target w₀).1 =
      match (h.reply (.buildProject target) w₀.host w₀.files).answer with
      | .error e => .error (.ofHost e)
      | .ok () => .ok ⟨target, ⟨w₀.hub.count⟩, w₀.hub.watch, w₀.clock + config.timeout⟩ := by
  cases hanswer : (h.reply (.buildProject target) w₀.host w₀.files).answer with
  | error e => simp [Wait.start, World.ask, hanswer]
  | ok => simp [Wait.start, World.ask, Hub.subscribe, Hub.watch, hanswer]

/-- What a wait takes from its start: the abandonments that it has seen, and when it ends. -/
lemma Course.set (c : Course h config target w₀ wait w) :
    wait.watcher = w₀.hub.watch ∧ wait.deadline = w₀.clock + config.timeout := by
  induction c with
  | @start wait w started =>
    have hanswer := start_answer h config target w₀
    rw [started] at hanswer
    split at hanswer
    · exact absurd hanswer (by simp)
    · obtain rfl := Except.ok.inj hanswer
      exact ⟨rfl, rfl⟩
  | @look wait wait' w w' c vain ih =>
    have hsame : wait' = _ := vain ▸ look_wait w config.timeoutSeconds wait
    rw [hsame]
    exact ih
  | later c later ih => exact ih

/-- The build of a target fails at once with the error of the host, if that cannot start it.
Otherwise what a look comes to, if the session may notice everything, is the verdict about what has
come since the start: the events that are still kept, at most as many as the hub keeps, in their
order; whether builds have been abandoned; and whether the time is over.  What came before the
start does not count.  A wait that does not end with the outcome of a build fails since the file
was not compiled. -/
theorem ends_by_verdict (h : Host σ) (config : SessionConfig) (target : Target) (w₀ : World σ) :
    (∀ e, (Wait.start h config target w₀).1 = .error e ↔
      ∃ refusal, (h.reply (.buildProject target) w₀.host w₀.files).answer = .error refusal ∧
        e = .ofHost refusal) ∧
    ∀ wait w, Course h config target w₀ wait w → wait.Unhurried w →
      ∃ new, w.hub.published = new ++ w₀.hub.published ∧
        (wait.look w config.timeoutSeconds).1 =
          verdict config.timeoutSeconds target (new.take w₀.hub.capacity).reverse
            (w₀.hub.abandonments != w.hub.abandonments) (w₀.clock + config.timeout ≤ w.clock) ∧
        ∀ e, (wait.look w config.timeoutSeconds).1 = some (.error e) → e.kind = .compileFailed := by
  refine ⟨fun e => ?_, fun wait w c unhurried => ?_⟩
  · rw [start_answer]
    cases (h.reply (.buildProject target) w₀.host w₀.files).answer with
    | error refusal => simp [eq_comm]
    | ok => simp
  · obtain ⟨htarget, hgrows, hreading⟩ := c.reading
    obtain ⟨hwatcher, hdeadline⟩ := c.set
    obtain ⟨new, hnew⟩ := hgrows.published
    refine ⟨new, hnew, ?_, fun e he => kind_of_look _ _ _ he⟩
    -- what was read before tells nothing, so it may as well be read again
    have hevents : (w.hub.readable wait.receiver).findSome? (outcomeOf wait.target.project) =
        (w.hub.readable ⟨w₀.hub.count⟩).findSome? (outcomeOf wait.target.project) := by
      refine Option.ext fun b => ?_
      rw [Hub.findSome?_readable_eq_some_iff, Hub.findSome?_readable_eq_some_iff]
      exact exists_congr fun p => hreading.first_iff
    rw [look_of_unhurried unhurried, verdict, hevents, Hub.readable_of_published hnew,
      hgrows.capacity, hwatcher, hdeadline, htarget]
    rfl

end

/-- A host that abandons its builds while it starts one, which nevertheless succeeds at once. -/
def hastyHost : Host OptionTable where
  reply
    | .buildProject target, s, t =>
      ⟨.ok (), s, t, [.abandon, .event (.solutionDone (.ofClock 0 0)),
        .event (doneEvent target true)]⟩
    | c, s, t => buildingHost.reply c s t

/-- A world in which the project has failed to build before, and builds were abandoned. -/
def stale : World OptionTable where
  host := {}
  hub := ((Hub.ofCapacity 2).publish (doneEvent debug false)).abandon

/-- The time is over from the start, and builds have been abandoned since, but the wait ends with
the success of the build. -/
theorem ends_by_verdict_of_stale :
    let config : SessionConfig := { artifactDir := "", timeout := 0 }
    let wait : Wait := ⟨debug, ⟨1⟩, ⟨1⟩, 0⟩
    let w := (Wait.start hastyHost config debug stale).2
    Course hastyHost config debug stale wait w ∧ wait.Unhurried w ∧
      w.hub.changed wait.watcher = true ∧ wait.deadline ≤ w.clock ∧
      (wait.look w config.timeoutSeconds).1 = some (.ok true) := by
  intro config wait w
  have c : Course hastyHost config debug stale wait w := .start rfl
  have unhurried : wait.Unhurried w := by
    rw [Unhurried]
    decide +kernel
  obtain ⟨new, hnew, hlook, -⟩ :=
    (ends_by_verdict hastyHost config debug stale).2 wait w c unhurried
  obtain rfl : [doneEvent debug true, .solutionDone (.ofClock 0 0)] = new :=
    List.append_cancel_right hnew
  refine ⟨c, unhurried, by decide +kernel, by decide +kernel, ?_⟩
  rw [hlook]
  decide +kernel

end Wait

end BuildLens
