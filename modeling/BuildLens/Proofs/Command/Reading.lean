/-
Reading the words of a level is to take note of what they spell.

The reader judges the value of an option only when something else follows, so it carries the option
that was met last along.  A reading is therefore compared with the items that were met by what it
comes to once that option is judged (`Reading.judged`).  Then a word does to a reading just what the
items do that it spells (`Reading.word_iff`), and so do the words of a level (`Reading.words_iff`):
they are accepted exactly if they spell items that can be noted one after the other.
-/
import BuildLens.Proofs.Command.Noting

namespace BuildLens

namespace Reading

variable {l : Level} {r r' r₀ r₁ : Reading} {o : CommandOption} {o' : Option CommandOption}
  {v w name : String} {s : Switch} {i : Item} {is js : List Item} {cs : List Char}
  {ws : List String} {rest : Option (String × List String)}

/-! ## The option that was met last -/

/-- The option whose value is to follow. -/
def opened (r : Reading) : Option CommandOption :=
  match r.pending with
  | some (o, none) => some o
  | _ => none

/-- What a reading comes to when the option that was met last is judged, unless its value is to
follow. -/
def judged (r : Reading) : Except UsageError Reading :=
  match r.pending with
  | some (_, none) => .ok { r with pending := none }
  | _ => r.settle

lemma opened_eq_some_iff : r.opened = some o ↔ r.pending = some (o, none) := by
  rw [opened]
  split <;> simp_all

lemma awaitsValue_eq (r : Reading) : r.awaitsValue = r.opened.isSome := by
  rw [awaitsValue, opened]
  rcases r.pending with _ | ⟨o, _ | v⟩ <;> rfl

lemma opened_of_pending (hr : r.pending = none) : r.opened = none := by
  rw [opened, hr]

/-- An option without its value cannot be judged. -/
lemma opened_of_settle (h : r.settle = .ok r₀) : r.opened = none := by
  rw [settle] at h
  rw [opened]
  split at h <;> simp_all

lemma judged_of_opened_eq_none (hr : r.opened = none) : r.judged = r.settle := by
  rw [opened] at hr
  rw [judged]
  split <;> simp_all

lemma judged_of_opened_eq_some (hr : r.opened = some o) :
    r.judged = .ok { r with pending := none } := by
  rw [judged, opened_eq_some_iff.mp hr]

/-- Nothing is left to be judged of a reading that comes to another one, with no option open. -/
lemma settle_eq_ok_iff : r.settle = .ok r' ↔ r.judged = .ok r' ∧ r.opened = none := by
  constructor
  · intro h
    have hr := opened_of_settle h
    exact ⟨judged_of_opened_eq_none hr ▸ h, hr⟩
  · rintro ⟨h, hr⟩
    rwa [judged_of_opened_eq_none hr] at h

/-! ## Steps -/

/-- A step leads to a reading that comes to a given one, with a given option open. -/
def Leads (step : Except UsageError Reading) (r' : Reading) (o' : Option CommandOption) : Prop :=
  ∃ r₁, step = .ok r₁ ∧ r₁.judged = .ok r' ∧ r₁.opened = o'

/-- To note items that are spelled in a given way leads from a reading to another one. -/
def Follows (start : Except UsageError Reading) (Spelled : List Item → Prop) (r' : Reading) :
    Prop :=
  ∃ r₀ is, start = .ok r₀ ∧ Spelled is ∧ r₀.gather is = .ok r'

section

variable {start step : Except UsageError Reading}

lemma not_leads_error {e : UsageError} : ¬ Leads (.error e) r' o' := by
  rintro ⟨r₁, h, -⟩
  contradiction

lemma leads_none_iff : Leads step r' none ↔ ∃ r₁, step = .ok r₁ ∧ r₁.settle = .ok r' := by
  simp only [Leads, settle_eq_ok_iff]

lemma leads_bind_iff {next : Reading → Except UsageError Reading} :
    Leads (step >>= next) r' o' ↔ ∃ r₁, step = .ok r₁ ∧ Leads (next r₁) r' o' := by
  simp only [Leads, bind_eq_ok_iff]
  constructor
  · rintro ⟨r₂, ⟨r₁, hstep, hnext⟩, hr₂⟩
    exact ⟨r₁, hstep, r₂, hnext, hr₂⟩
  · rintro ⟨r₁, hstep, r₂, hnext, hr₂⟩
    exact ⟨r₂, ⟨r₁, hstep, hnext⟩, hr₂⟩

lemma not_follows {Spelled : List Item → Prop} (h : ∀ is, ¬ Spelled is) :
    ¬ Follows start Spelled r' :=
  fun ⟨_, is, _, his, _⟩ => h is his

/-- Items that are spelled in one way only are noted. -/
lemma follows_iff {Spelled : List Item → Option CommandOption → Prop} {p : Option CommandOption}
    (hunique : ∀ {is js p p'}, Spelled is p → Spelled js p' → is = js ∧ p = p')
    (h : Spelled is p) :
    Follows start (Spelled · o') r' ↔ (∃ r₀, start = .ok r₀ ∧ r₀.gather is = .ok r') ∧ o' = p := by
  constructor
  · rintro ⟨r₀, js, hstart, hjs, hgather⟩
    obtain ⟨rfl, rfl⟩ := hunique h hjs
    exact ⟨⟨r₀, hstart, hgather⟩, rfl⟩
  · rintro ⟨⟨r₀, hstart, hgather⟩, rfl⟩
    exact ⟨r₀, is, hstart, h, hgather⟩

end

lemma leads_note_iff : Leads (r.note i) r' o' ↔
    (∃ r₀, r.settle = .ok r₀ ∧ r₀.gather [i] = .ok r') ∧ o' = none := by
  simp only [gather_singleton, ← note_eq_ok_iff]
  constructor
  · rintro ⟨r₁, h, hr₁, rfl⟩
    have hpending := pending_of_note h
    have hopened := opened_of_pending hpending
    rw [judged_of_opened_eq_none hopened, settle_of_pending hpending] at hr₁
    exact ⟨h.trans hr₁, hopened⟩
  · rintro ⟨h, rfl⟩
    have hpending := pending_of_note h
    exact leads_none_iff.mpr ⟨r', h, settle_of_pending hpending⟩

lemma leads_await_iff : Leads (r.await o) r' o' ↔
    (∃ r₀, r.settle = .ok r₀ ∧ r₀.gather [] = .ok r') ∧ o' = some o := by
  rw [await, leads_bind_iff]
  simp only [gather_nil, Except.ok.injEq, exists_eq_right]
  constructor
  · rintro ⟨r₀, hsettle, r₁, h, hr₁, rfl⟩
    cases h
    rw [judged, ← pending_of_settle hsettle] at hr₁
    cases hr₁
    exact ⟨hsettle, rfl⟩
  · rintro ⟨hsettle, rfl⟩
    exact ⟨r', hsettle, _, rfl, by rw [judged, ← pending_of_settle hsettle], rfl⟩

/-! ## Words -/

/-- What a word of letters does, by what the first one stands for. -/
lemma letters_cons (l : Level) (c : Char) (cs : List Char) (r : Reading) :
    letters l (c :: cs) r =
      match l.lettered? c, cs with
      | none, _ => .error .unknownArgument
      | some (.switch s), cs => r.note (.switch s) >>= letters l cs
      | some (.option o), [] => r.await o
      | some (.option o), d :: v =>
        r.note (.value o (String.ofList (if d = '=' then v else d :: v))) := by
  unfold letters
  rcases l.lettered? c with _ | o | s
  · rfl
  · cases cs with
    | nil => rfl
    | cons d v =>
      by_cases hd : d = '='
      · subst hd
        rfl
      · simp [hd, note]
  · rfl

/-- Letters do to a reading what the items do that they spell. -/
lemma letters_iff (hcs : cs = [] → r.opened = none) :
    Leads (letters l cs r) r' o' ↔ Follows r.settle (l.Letters cs · o') r' := by
  induction cs generalizing r with
  | nil =>
    rw [follows_iff Level.Letters.unique .nil, letters]
    simp only [gather_nil, Except.ok.injEq, exists_eq_right]
    constructor
    · rintro ⟨r₁, h, hjudged, rfl⟩
      cases h
      exact ⟨judged_of_opened_eq_none (hcs rfl) ▸ hjudged, hcs rfl⟩
    · rintro ⟨h, rfl⟩
      exact ⟨r, rfl, judged_of_opened_eq_none (hcs rfl) ▸ h, hcs rfl⟩
  | cons c cs ih =>
    rw [letters_cons]
    rcases hc : l.lettered? c with _ | ⟨o⟩ | ⟨s⟩
    · refine iff_of_false not_leads_error (not_follows fun is hletters => ?_)
      cases hletters <;> simp_all
    · cases cs with
      | nil =>
        rw [leads_await_iff, follows_iff Level.Letters.unique (.opened hc)]
      | cons d v =>
        rw [leads_note_iff]
        by_cases hd : d = '='
        · subst hd
          rw [if_pos rfl, follows_iff Level.Letters.unique (.assigned hc)]
        · rw [if_neg hd, follows_iff Level.Letters.unique (.joined hc hd)]
    · rw [leads_bind_iff]
      constructor
      · rintro ⟨r₁, hnote, hleads⟩
        obtain ⟨r₀, hsettle, hnote⟩ := note_eq_ok_iff.mp hnote
        have hpending := pending_of_note hnote
        obtain ⟨r₂, is, hr₂, hletters, hgather⟩ :=
          (ih fun _ => opened_of_pending hpending).mp hleads
        obtain rfl := Except.ok.inj ((settle_of_pending hpending).symm.trans hr₂)
        exact ⟨r₀, .switch s :: is, hsettle, .switch hc hletters,
          gather_cons_iff.mpr ⟨r₁, hnote, hgather⟩⟩
      · rintro ⟨r₀, is, hsettle, hletters, hgather⟩
        cases hletters with
        | switch hc' hletters =>
          cases hc.symm.trans hc'
          obtain ⟨r₁, hnote, hgather⟩ := gather_cons_iff.mp hgather
          have hpending := pending_of_note hnote
          exact ⟨r₁, note_eq_ok_iff.mpr ⟨r₀, hsettle, hnote⟩,
            (ih fun _ => opened_of_pending hpending).mpr
              ⟨r₁, _, settle_of_pending hpending, hletters, hgather⟩⟩
        | opened hc' | assigned hc' | joined hc' => cases hc.symm.trans hc'

/-- What a word with a long name does, by what the name stands for. -/
lemma long_eq (l : Level) (name : String) (value : Option String) (r : Reading) :
    r.long l name value =
      match l.named? name, value with
      | none, _ => .error .unknownArgument
      | some (.switch s), none => r.note (.switch s)
      | some (.switch _), some _ => .error .unwantedValue
      | some (.option o), none => r.await o
      | some (.option o), some v => r.note (.value o v) :=
  rfl

/-- A word with a long name does to a reading what the items do that it spells. -/
lemma long_iff :
    Leads (r.long l (String.ofList (cs.takeWhile (· != '='))) (valueIn cs)) r' o' ↔
      Follows r.settle (l.Word ('-' :: '-' :: cs) · o') r' := by
  rw [long_eq]
  rcases hl : l.named? (String.ofList (cs.takeWhile (· != '='))) with _ | ⟨o⟩ | ⟨s⟩
  · refine iff_of_false not_leads_error (not_follows fun is hword => ?_)
    obtain ⟨p, hp⟩ | ⟨hcs, s, hs⟩ := hword.named
    · cases hl.symm.trans hp
    · rw [takeWhile_name hcs] at hl
      cases hl.symm.trans hs
  · by_cases hcs : '=' ∈ cs
    · obtain ⟨name, v, rfl, hname⟩ := List.eq_append_cons_of_mem hcs
      rw [valueIn_assigned hname, leads_note_iff]
      rw [takeWhile_assigned hname] at hl
      rw [follows_iff Level.Word.unique (.assigned hname hl)]
    · rw [valueIn_name hcs, leads_await_iff]
      rw [takeWhile_name hcs] at hl
      rw [follows_iff Level.Word.unique (.opened hcs hl)]
  · by_cases hcs : '=' ∈ cs
    · obtain ⟨name, v, rfl, hname⟩ := List.eq_append_cons_of_mem hcs
      rw [valueIn_assigned hname]
      refine iff_of_false not_leads_error (not_follows fun is hword => ?_)
      obtain ⟨p, hp⟩ | ⟨hnone, -⟩ := hword.named
      · cases hl.symm.trans hp
      · exact hnone hcs
    · rw [valueIn_name hcs, leads_note_iff]
      rw [takeWhile_name hcs] at hl
      rw [follows_iff Level.Word.unique (.switch hcs hl)]

lemma word_eq_long (hw : w.toList = '-' :: '-' :: cs) (l : Level) (r : Reading) :
    r.word l w = r.long l (String.ofList (cs.takeWhile (· != '='))) (valueIn cs) := by
  simp [word, hw]

lemma word_eq_letters {c : Char} (hw : w.toList = '-' :: c :: cs) (hc : c ≠ '-') (l : Level)
    (r : Reading) : r.word l w = letters l (c :: cs) r := by
  simp [word, hw]

/-- A word that is not plain does to a reading what the items do that it spells. -/
lemma word_iff_of_not_isPlain (hw : isPlain w = false) :
    Leads (r.word l w) r' o' ↔ Follows r.settle (l.Word w.toList · o') r' := by
  obtain ⟨c, cs, hcs⟩ := exists_of_not_isPlain hw
  rw [hcs]
  by_cases hc : c = '-'
  · subst hc
    rw [word_eq_long hcs, long_iff]
  · have hword : ∀ is, l.Word ('-' :: c :: cs) is o' ↔ l.Letters (c :: cs) is o' := by
      refine fun is => ⟨fun h => ?_, fun h => .letters hc h⟩
      cases h with
      | switch | opened | assigned => exact absurd rfl hc
      | letters _ h => exact h
    rw [word_eq_letters hcs hc, letters_iff (by simp)]
    simp only [hword]

lemma word_eq_value (hw : isPlain w = true) (hr : r.opened = some o) (l : Level) :
    r.word l w = .ok { r with pending := some (o, some w) } := by
  rw [isPlain] at hw
  rw [opened_eq_some_iff] at hr
  rw [word, hr]
  split <;> simp_all

lemma word_eq_operand (hw : isPlain w = true) (hr : r.opened = none) (l : Level) :
    r.word l w = r.operand l w := by
  rw [isPlain] at hw
  rw [opened] at hr
  rw [word]
  split
  · simp_all
  · simp_all
  · split <;> simp_all

/-- A value that follows its option, or an operand, is noted once it is judged. -/
lemma leads_value_iff (hr : r.pending = none) :
    Leads (.ok { r with pending := some (o, some v) }) r' o' ↔
      r.gather [.value o v] = .ok r' ∧ o' = none := by
  have hjudged : judged { r with pending := some (o, some v) } = r.accept o v := by
    rw [judged, settle, ← hr]
  rw [gather_singleton, note_value hr, ← hjudged]
  constructor
  · rintro ⟨r₁, h, hr₁, rfl⟩
    cases h
    exact ⟨hr₁, rfl⟩
  · rintro ⟨h, rfl⟩
    exact ⟨_, rfl, h, rfl⟩

lemma operand_eq_ok_iff (ho : l.operand = some o) : r.operand l w = .ok r' ↔
    ∃ r₀, r.settle = .ok r₀ ∧ r₀.has o.name = false ∧
      r' = { r₀ with pending := some (o, some w) } := by
  rw [operand, ho]
  dsimp only
  split
  next hmeets =>
    refine iff_of_false (by simp) ?_
    rintro ⟨r₀, hsettle, hhas, -⟩
    rw [meets_of_settle hsettle, hhas] at hmeets
    contradiction
  next hmeets =>
    rw [bind_eq_ok_iff]
    constructor
    · rintro ⟨r₀, hsettle, h⟩
      cases h
      exact ⟨r₀, hsettle, by simpa [← meets_of_settle hsettle] using hmeets, rfl⟩
    · rintro ⟨r₀, hsettle, -, rfl⟩
      exact ⟨r₀, hsettle, rfl⟩

lemma leads_operand_iff (ho : l.operand = some o) : Leads (r.operand l w) r' o' ↔
    (∃ r₀, r.settle = .ok r₀ ∧ r₀.gather [.value o w] = .ok r') ∧ o' = none := by
  constructor
  · rintro ⟨r₁, h, hr₁⟩
    obtain ⟨r₀, hsettle, -, rfl⟩ := (operand_eq_ok_iff ho).mp h
    obtain ⟨hgather, ho'⟩ := (leads_value_iff (pending_of_settle hsettle)).mp ⟨_, rfl, hr₁⟩
    exact ⟨⟨r₀, hsettle, hgather⟩, ho'⟩
  · rintro ⟨⟨r₀, hsettle, hgather⟩, ho'⟩
    have hpending := pending_of_settle hsettle
    obtain ⟨r₁, h, hr₁⟩ := (leads_value_iff hpending).mpr ⟨hgather, ho'⟩
    cases h
    -- what can be judged later is not given for the second time
    rw [gather_singleton, note_value hpending] at hgather
    obtain ⟨hhas, -⟩ := accept_eq_ok_iff.mp hgather
    exact ⟨_, (operand_eq_ok_iff ho).mpr ⟨r₀, hsettle, hhas, rfl⟩, hr₁⟩

/-- A word does to a reading what the items do that it spells. -/
theorem word_iff (hend : w ≠ endOfOptions) (hlevel : r.opened = none → w ∉ l.commands) :
    Leads (r.word l w) r' o' ↔ Follows r.judged (l.Takes r.opened w · o') r' := by
  cases hr : r.opened with
  | none =>
    rw [judged_of_opened_eq_none hr]
    cases hw : isPlain w with
    | false =>
      have htakes : ∀ is, l.Takes none w is o' ↔ l.Word w.toList is o' := by
        refine fun is => ⟨fun h => ?_, fun h => .word (hlevel hr) hend h⟩
        cases h with
        | word _ _ h => exact h
        | operand _ _ hplain => exact absurd hplain (by simp [hw])
      rw [word_iff_of_not_isPlain hw]
      simp only [htakes]
    | true =>
      rw [word_eq_operand hw hr]
      cases ho : l.operand with
      | none =>
        rw [operand, ho]
        refine iff_of_false not_leads_error (not_follows fun is htakes => ?_)
        cases htakes with
        | word _ _ h => exact absurd hw (by simp [h.not_isPlain])
        | operand ho' => cases ho.symm.trans ho'
      | some o =>
        rw [leads_operand_iff ho, follows_iff Level.Takes.unique (.operand ho (hlevel hr) hw)]
  | some o =>
    cases hw : isPlain w with
    | false =>
      refine iff_of_false ?_ (not_follows fun is htakes => ?_)
      · rw [word_iff_of_not_isPlain hw]
        rintro ⟨r₀, is, hsettle, -⟩
        cases hr.symm.trans (opened_of_settle hsettle)
      · cases htakes with
        | value hplain => exact absurd hplain (by simp [hw])
    | true =>
      rw [word_eq_value hw hr, judged_of_opened_eq_some hr,
        follows_iff Level.Takes.unique (.value hw)]
      simpa using leads_value_iff (r := { r with pending := none }) rfl

/-! ## The words of a level -/

/-- What is left of the words behind a level. -/
def remainder : Option (String × List String) → List String
  | none => []
  | some (c, ws) => c :: ws

/-- Behind the end of the options every word is an operand. -/
lemma words_plain_iff (ho : l.operand = some o) :
    (∃ r₁, r.words l true ws = .ok (r₁, rest) ∧ r₁.settle = .ok r') ↔
      rest = none ∧ ∃ r₀, r.settle = .ok r₀ ∧ r₀.gather (ws.map (.value o)) = .ok r' := by
  induction ws generalizing r with
  | nil =>
    constructor
    · rintro ⟨r₁, h, hsettle⟩
      cases h
      exact ⟨rfl, r', hsettle, gather_nil r'⟩
    · rintro ⟨rfl, r₀, hsettle, hgather⟩
      cases hgather
      exact ⟨r, rfl, hsettle⟩
  | cons w ws ih =>
    rw [words, if_pos rfl, List.map_cons, ← List.singleton_append]
    constructor
    · rintro ⟨r₁, h, hsettle⟩
      obtain ⟨r₂, hw, hws⟩ := bind_eq_ok_iff.mp h
      obtain ⟨hrest, r₃, hr₃, hgather⟩ := ih.mp ⟨r₁, hws, hsettle⟩
      obtain ⟨⟨r₀, hr₀, hnote⟩, -⟩ :=
        (leads_operand_iff ho).mp (leads_none_iff.mpr ⟨r₂, hw, hr₃⟩)
      exact ⟨hrest, r₀, hr₀, gather_append_iff.mpr ⟨r₃, hnote, hgather⟩⟩
    · rintro ⟨hrest, r₀, hr₀, h⟩
      obtain ⟨r₃, hnote, hgather⟩ := gather_append_iff.mp h
      obtain ⟨r₂, hw, hr₃⟩ :=
        leads_none_iff.mp ((leads_operand_iff (w := w) ho).mpr ⟨⟨r₀, hr₀, hnote⟩, rfl⟩)
      obtain ⟨r₁, hws, hsettle⟩ := ih.mpr ⟨hrest, r₃, hr₃, hgather⟩
      exact ⟨r₁, bind_eq_ok_iff.mpr ⟨r₂, hw, hws⟩, hsettle⟩

/-- A level that does not end with the line ends at a word that ends it. -/
lemma mem_commands_of_words {plain : Bool} (h : r.words l plain ws = .ok (r', rest)) :
    ∀ p ∈ rest, p.1 ∈ l.commands := by
  induction ws generalizing plain r with
  | nil =>
    cases h
    simp
  | cons w ws ih =>
    rw [words] at h
    split at h
    next =>
      obtain ⟨_, -, h⟩ := bind_eq_ok_iff.mp h
      exact ih h
    next =>
      split at h
      next hw =>
        cases h
        simp_all
      next =>
        split at h
        next => exact ih h
        next =>
          obtain ⟨_, -, h⟩ := bind_eq_ok_iff.mp h
          exact ih h

/-- A level without an operand has no words behind the end of its options. -/
lemma rest_of_words_plain (ho : l.operand = none) (h : r.words l true ws = .ok (r', rest)) :
    rest = none := by
  cases ws with
  | nil =>
    cases h
    rfl
  | cons w ws =>
    rw [words, if_pos rfl, operand, ho] at h
    contradiction

section

-- the level of a command ends with the line, the one before it at the name of a command
variable (hrest : rest.isSome = l.operand.isNone)

include hrest

/-- What a level reads is spelled by the words in front of its end. -/
lemma follows_of_words (h : r.words l false ws = .ok (r₁, rest)) (hsettle : r₁.settle = .ok r') :
    ∃ front, ws = front ++ remainder rest ∧ Follows r.judged (l.Spells r.opened front) r' := by
  induction ws generalizing r with
  | nil =>
    cases h
    have hr := opened_of_settle hsettle
    rw [hr, judged_of_opened_eq_none hr]
    exact ⟨[], rfl, r', [], hsettle, .nil, gather_nil r'⟩
  | cons w ws ih =>
    rw [words, if_neg (by simp), awaitsValue_eq] at h
    split at h
    next hw =>
      -- the level ends here
      cases h
      have hr := opened_of_settle hsettle
      rw [hr, judged_of_opened_eq_none hr]
      exact ⟨[], rfl, r', [], hsettle, .nil, gather_nil r'⟩
    next hw =>
      have hlevel : r.opened = none → w ∉ l.commands := by
        intro hr
        simpa [hr] using hw
      split at h
      next hend =>
        subst hend
        cases ho : l.operand with
        | none => simp [ho, rest_of_words_plain ho h] at hrest
        | some o =>
          obtain ⟨rfl, r₀, hr₀, hgather⟩ := (words_plain_iff ho).mp ⟨r₁, h, hsettle⟩
          have hr := opened_of_settle hr₀
          rw [hr, judged_of_opened_eq_none hr]
          exact ⟨endOfOptions :: ws, (List.append_nil _).symm, r₀, _, hr₀,
            .ended ho (hlevel hr), hgather⟩
      next hend =>
        obtain ⟨r₂, hword, hws⟩ := bind_eq_ok_iff.mp h
        obtain ⟨front, rfl, r₃, js, hr₃, hspells, hjs⟩ := ih hws
        obtain ⟨r₀, is, hr₀, htakes, his⟩ := (word_iff hend hlevel).mp ⟨r₂, hword, hr₃, rfl⟩
        exact ⟨w :: front, rfl, r₀, is ++ js, hr₀, .cons htakes hspells,
          gather_append_iff.mpr ⟨r₃, his, hjs⟩⟩

/-- The words in front of the end of a level are read as what they spell. -/
lemma exists_words_of_spells {front : List String} (hcommand : ∀ p ∈ rest, p.1 ∈ l.commands)
    (hspells : l.Spells o' front is) (hr : r.opened = o') (hr₀ : r.judged = .ok r₀)
    (hgather : r₀.gather is = .ok r') :
    ∃ r₁, r.words l false (front ++ remainder rest) = .ok (r₁, rest) ∧ r₁.settle = .ok r' := by
  induction hspells generalizing r r₀ with
  | nil =>
    cases hgather
    rw [judged_of_opened_eq_none hr] at hr₀
    refine ⟨r, ?_, hr₀⟩
    rcases rest with _ | ⟨c, behind⟩
    · rfl
    · have hc : c ∈ l.commands := hcommand _ rfl
      rw [List.nil_append, remainder, words, if_neg (by simp), awaitsValue_eq, hr,
        if_pos (by simpa using hc)]
  | @cons o' o'' w front is js hw hfront ih =>
    have hend : w ≠ endOfOptions := by
      rintro rfl
      exact Level.not_takes_endOfOptions hw
    have hlevel : r.opened = none → w ∉ l.commands := by
      intro hnone hmem
      rw [← hr, hnone] at hw
      exact Level.not_takes_of_mem_commands hmem hw
    obtain ⟨r₃, his, hjs⟩ := gather_append_iff.mp hgather
    obtain ⟨r₂, hword, hr₃, hr₂⟩ := (word_iff hend hlevel).mpr ⟨r₀, is, hr₀, hr ▸ hw, his⟩
    obtain ⟨r₁, hwords, hsettle⟩ := ih hr₂ hr₃ hjs
    refine ⟨r₁, ?_, hsettle⟩
    rw [List.cons_append, words, if_neg (by simp), awaitsValue_eq, if_neg (by
      cases hnone : r.opened <;> simp_all), if_neg hend]
    exact bind_eq_ok_iff.mpr ⟨r₂, hword, hwords⟩
  | @ended o ws ho hlevel =>
    obtain rfl : rest = none := by simpa [ho] using hrest
    rw [judged_of_opened_eq_none hr] at hr₀
    rw [remainder, List.append_nil, words, if_neg (by simp), awaitsValue_eq, hr,
      if_neg (by simpa using hlevel), if_pos rfl]
    exact (words_plain_iff ho).mpr ⟨rfl, r₀, hr₀, hgather⟩

/-- The words of a level are accepted exactly if those in front of its end spell items that can be
taken notice of, and they are read as these items. -/
theorem words_iff :
    (∃ r₁, words l false {} ws = .ok (r₁, rest) ∧ r₁.settle = .ok r') ↔
      ∃ front is, ws = front ++ remainder rest ∧ (∀ p ∈ rest, p.1 ∈ l.commands) ∧
        l.Spells none front is ∧ gather {} is = .ok r' := by
  constructor
  · rintro ⟨r₁, h, hsettle⟩
    obtain ⟨front, hws, r₀, is, hr₀, hspells, hgather⟩ := follows_of_words hrest h hsettle
    cases hr₀
    exact ⟨front, is, hws, mem_commands_of_words h, hspells, hgather⟩
  · rintro ⟨front, is, rfl, hcommand, hspells, hgather⟩
    exact exists_words_of_spells hrest hcommand hspells rfl rfl hgather

end

end Reading

end BuildLens
