/-
What the words of a command line spell.

A level of a command line is a row of items: switches, and options with their values, of which the
operand is one.  A word spells some items, and it may leave an option open, whose value is then the
next word (`Level.Takes`).  So the words of a level are spelled one after the other, up to the word
that ends the options; behind that one every word is an operand (`Level.Spells`).

* `Level.Spells.unique`: words spell at most one row of items;
* `Level.Spells.cut_unique`: on a level without an operand they end at the first word that ends the
  level, unless that word is the value of an option;
* `Level.Spells.insert` and `Level.Spells.of_insert`: wherever a word `-v` stands among them, it
  spells a switch of its own, or else it stands behind the end of the options.
-/
import Mathlib.Data.List.TakeWhile
import Mathlib.Tactic.Common
import BuildLens.Command.Reading

namespace BuildLens

/-- What is given on a level of a command line. -/
inductive Item where
  /-- A switch. -/
  | switch (s : Switch)
  /-- An option or the operand, with its value. -/
  | value (o : CommandOption) (v : String)
  deriving DecidableEq, Repr

/-- How often more output is asked for. -/
def asked (is : List Item) : Nat :=
  is.count (.switch .verbose)

/-- Items with one switch more among them, which asks for more output. -/
def AsksOnceMore (is is' : List Item) : Prop :=
  ∃ js ks, is = js ++ ks ∧ is' = js ++ .switch .verbose :: ks

lemma AsksOnceMore.asked_eq {is is' : List Item} (h : AsksOnceMore is is') :
    asked is' = asked is + 1 := by
  obtain ⟨js, ks, rfl, rfl⟩ := h
  rw [asked, asked, List.count_append, List.count_append, List.count_cons_self, Nat.add_assoc]

/-- The word that asks once for more output. -/
def verboseWord : String :=
  "-v"

/-- A word that names neither an option nor a switch: a value or an operand.  A dash alone is one
as well. -/
def isPlain (w : String) : Bool :=
  match w.toList with
  | '-' :: _ :: _ => false
  | _ => true

lemma not_isPlain {w : String} {c : Char} {cs : List Char} (hw : w.toList = '-' :: c :: cs) :
    isPlain w = false := by
  simp [isPlain, hw]

lemma exists_of_not_isPlain {w : String} (hw : isPlain w = false) :
    ∃ c cs, w.toList = '-' :: c :: cs := by
  rw [isPlain] at hw
  split at hw
  next c cs h => exact ⟨c, cs, h⟩
  next => contradiction

/-! ## Names and values in one word -/

section

variable {cs : List Char} (hcs : '=' ∉ cs)

include hcs

lemma bne_of_mem_name : ∀ c ∈ cs, (c != '=') = true := by
  intro c hc
  rw [bne_iff_ne]
  rintro rfl
  exact hcs hc

lemma takeWhile_name : cs.takeWhile (· != '=') = cs :=
  List.takeWhile_eq_self_iff.mpr (bne_of_mem_name hcs)

lemma takeWhile_assigned (v : List Char) : (cs ++ '=' :: v).takeWhile (· != '=') = cs := by
  rw [List.takeWhile_append_of_pos (bne_of_mem_name hcs)]
  simp

lemma valueIn_name : Reading.valueIn cs = none := by
  rw [Reading.valueIn, List.dropWhile_eq_nil_iff.mpr (bne_of_mem_name hcs)]

lemma valueIn_assigned (v : List Char) :
    Reading.valueIn (cs ++ '=' :: v) = some (String.ofList v) := by
  rw [Reading.valueIn, List.dropWhile_append_of_pos (bne_of_mem_name hcs)]
  simp

end

namespace Level

/-- Letters behind a dash.  They spell switches, and then perhaps an option: what follows its letter
is the value, with or without a sign `=` in front, and if nothing follows, then the option is left
open. -/
inductive Letters (l : Level) : List Char → List Item → Option CommandOption → Prop where
  | nil : Letters l [] [] none
  | switch {c : Char} {s : Switch} {cs : List Char} {is : List Item} {o : Option CommandOption}
      (hc : l.lettered? c = some (.switch s)) (h : Letters l cs is o) :
      Letters l (c :: cs) (.switch s :: is) o
  | opened {c : Char} {o : CommandOption} (hc : l.lettered? c = some (.option o)) :
      Letters l [c] [] (some o)
  | assigned {c : Char} {o : CommandOption} {v : List Char}
      (hc : l.lettered? c = some (.option o)) :
      Letters l (c :: '=' :: v) [.value o (String.ofList v)] none
  | joined {c d : Char} {o : CommandOption} {v : List Char}
      (hc : l.lettered? c = some (.option o)) (hd : d ≠ '=') :
      Letters l (c :: d :: v) [.value o (String.ofList (d :: v))] none

/-- A word that is not plain.  Behind two dashes stands the name of a switch or of an option, with
its value behind the first sign `=`; behind one dash stand letters. -/
inductive Word (l : Level) : List Char → List Item → Option CommandOption → Prop where
  | switch {cs : List Char} {s : Switch} (hcs : '=' ∉ cs)
      (hname : l.named? (String.ofList cs) = some (.switch s)) :
      Word l ('-' :: '-' :: cs) [.switch s] none
  | opened {cs : List Char} {o : CommandOption} (hcs : '=' ∉ cs)
      (hname : l.named? (String.ofList cs) = some (.option o)) :
      Word l ('-' :: '-' :: cs) [] (some o)
  | assigned {cs v : List Char} {o : CommandOption} (hcs : '=' ∉ cs)
      (hname : l.named? (String.ofList cs) = some (.option o)) :
      Word l ('-' :: '-' :: (cs ++ '=' :: v)) [.value o (String.ofList v)] none
  | letters {c : Char} {cs : List Char} {is : List Item} {o : Option CommandOption} (hc : c ≠ '-')
      (h : Letters l (c :: cs) is o) : Word l ('-' :: c :: cs) is o

/-- The items that a word of a level spells, when an option may be open in front of it, and the
option that is open behind it. -/
inductive Takes (l : Level) :
    Option CommandOption → String → List Item → Option CommandOption → Prop where
  | word {w : String} {is : List Item} {o : Option CommandOption} (hlevel : w ∉ l.commands)
      (hoptions : w ≠ Reading.endOfOptions) (h : l.Word w.toList is o) : Takes l none w is o
  | value {o : CommandOption} {w : String} (hw : isPlain w = true) :
      Takes l (some o) w [.value o w] none
  | operand {o : CommandOption} {w : String} (ho : l.operand = some o) (hlevel : w ∉ l.commands)
      (hw : isPlain w = true) : Takes l none w [.value o w] none

/-- The items that the words of a level spell, when an option may be open in front of them. -/
inductive Spells (l : Level) : Option CommandOption → List String → List Item → Prop where
  | nil : Spells l none [] []
  | cons {o o' : Option CommandOption} {w : String} {ws : List String} {is js : List Item}
      (hw : l.Takes o w is o') (hws : Spells l o' ws js) : Spells l o (w :: ws) (is ++ js)
  | ended {o : CommandOption} {ws : List String} (ho : l.operand = some o)
      (hlevel : Reading.endOfOptions ∉ l.commands) :
      Spells l none (Reading.endOfOptions :: ws) (ws.map (.value o))

variable {l : Level} {o o' o'' : Option CommandOption} {w : String} {cs : List Char}
  {ws pre post : List String} {is is' js : List Item}

/-! ## One row of items -/

lemma Letters.unique (h : l.Letters cs is o) (h' : l.Letters cs js o') : is = js ∧ o = o' := by
  induction h generalizing js with
  | nil =>
    cases h'
    exact ⟨rfl, rfl⟩
  | switch hc _ ih =>
    cases h' with
    | switch hc' h' =>
      obtain ⟨rfl, rfl⟩ := ih h'
      cases hc.symm.trans hc'
      exact ⟨rfl, rfl⟩
    | opened hc' | assigned hc' | joined hc' => cases hc.symm.trans hc'
  | opened hc =>
    cases h' with
    | switch hc' => cases hc.symm.trans hc'
    | opened hc' =>
      cases hc.symm.trans hc'
      exact ⟨rfl, rfl⟩
  | assigned hc =>
    cases h' with
    | switch hc' => cases hc.symm.trans hc'
    | assigned hc' =>
      cases hc.symm.trans hc'
      exact ⟨rfl, rfl⟩
    | joined _ hd => exact absurd rfl hd
  | joined hc hd =>
    cases h' with
    | switch hc' => cases hc.symm.trans hc'
    | assigned => exact absurd rfl hd
    | joined hc' =>
      cases hc.symm.trans hc'
      exact ⟨rfl, rfl⟩

/-- A name ends at the first sign `=`. -/
lemma Word.unique (h : l.Word cs is o) (h' : l.Word cs js o') : is = js ∧ o = o' := by
  cases h with
  | switch hcs hname =>
    cases h' with
    | switch _ hname' =>
      cases hname.symm.trans hname'
      exact ⟨rfl, rfl⟩
    | opened _ hname' => cases hname.symm.trans hname'
    | assigned => exact absurd (by simp) hcs
    | letters hc => exact absurd rfl hc
  | opened hcs hname =>
    cases h' with
    | switch _ hname' => cases hname.symm.trans hname'
    | opened _ hname' =>
      cases hname.symm.trans hname'
      exact ⟨rfl, rfl⟩
    | assigned => exact absurd (by simp) hcs
    | letters hc => exact absurd rfl hc
  | @assigned name v _ hname hassigned =>
    generalize hcs : name ++ '=' :: v = cs at h'
    cases h' with
    | switch hcs' | opened hcs' => exact absurd (by simp [← hcs]) hcs'
    | @assigned name' v' _ hname' hassigned' =>
      obtain rfl : name = name' := by
        rw [← takeWhile_assigned hname v, hcs, takeWhile_assigned hname']
      cases hassigned.symm.trans hassigned'
      have hv : some (String.ofList v) = some (String.ofList v') := by
        rw [← valueIn_assigned hname, hcs, valueIn_assigned hname]
      exact ⟨by rw [Option.some.inj hv], rfl⟩
    | letters hc => exact absurd rfl hc
  | letters hc h =>
    cases h' with
    | switch | opened | assigned => exact absurd rfl hc
    | letters _ h' => exact h.unique h'

/-- A long name is that of an option, or that of a switch, which has no value. -/
lemma Word.named (h : l.Word ('-' :: '-' :: cs) is o) :
    (∃ p, l.named? (String.ofList (cs.takeWhile (· != '='))) = some (.option p)) ∨
      '=' ∉ cs ∧ ∃ s, l.named? (String.ofList cs) = some (.switch s) := by
  generalize hword : '-' :: '-' :: cs = word at h
  cases h with
  | @switch name s hname h =>
    obtain rfl : cs = name := by simpa using hword
    exact .inr ⟨hname, s, h⟩
  | @opened name p hname h =>
    obtain rfl : cs = name := by simpa using hword
    exact .inl ⟨p, by rwa [takeWhile_name hname]⟩
  | @assigned name v p hname h =>
    obtain rfl : cs = name ++ '=' :: v := by simpa using hword
    exact .inl ⟨p, by rwa [takeWhile_assigned hname]⟩
  | letters hc =>
    cases hword
    exact absurd rfl hc

/-- A word that is not plain has a dash and something behind it. -/
lemma Word.not_isPlain (h : l.Word w.toList is o) : isPlain w = false := by
  generalize hw : w.toList = cs at h
  cases h <;> exact BuildLens.not_isPlain hw

lemma Takes.unique (h : l.Takes o w is o') (h' : l.Takes o w js o'') : is = js ∧ o' = o'' := by
  cases h with
  | word _ _ h =>
    cases h' with
    | word _ _ h' => exact h.unique h'
    | operand _ _ hw => exact absurd hw (by simp [h.not_isPlain])
  | value =>
    cases h'
    exact ⟨rfl, rfl⟩
  | operand ho _ hw =>
    cases h' with
    | word _ _ h' => exact absurd hw (by simp [h'.not_isPlain])
    | operand ho' =>
      cases ho.symm.trans ho'
      exact ⟨rfl, rfl⟩

/-- The word that ends the options spells nothing itself. -/
lemma not_takes_endOfOptions : ¬ l.Takes o Reading.endOfOptions is o' := by
  have hplain : isPlain Reading.endOfOptions = false := by decide
  rintro (⟨-, hne, -⟩ | ⟨hw⟩ | ⟨-, -, hw⟩)
  · exact hne rfl
  · exact absurd hw (by simp [hplain])
  · exact absurd hw (by simp [hplain])

/-- Words spell at most one row of items. -/
theorem Spells.unique (h : l.Spells o ws is) (h' : l.Spells o ws js) : is = js := by
  induction h generalizing js with
  | nil =>
    cases h'
    rfl
  | cons hw _ ih =>
    cases h' with
    | cons hw' hws' =>
      obtain ⟨rfl, rfl⟩ := hw.unique hw'
      rw [ih hws']
    | ended => exact absurd hw not_takes_endOfOptions
  | ended ho =>
    cases h' with
    | cons hw' => exact absurd hw' not_takes_endOfOptions
    | ended ho' => rw [Option.some.inj (ho.symm.trans ho')]

/-! ## The end of a level -/

/-- Where no option is open, a word that ends the level spells nothing. -/
lemma not_takes_of_mem_commands (hw : w ∈ l.commands) : ¬ l.Takes none w is o := by
  rintro (⟨hlevel, -, -⟩ | _ | ⟨-, hlevel, -⟩) <;> exact hlevel hw

lemma Spells.cut_unique {before before' behind behind' : List String} {c c' : String}
    (hoperand : l.operand = none) (h : l.Spells o before is) (h' : l.Spells o before' js)
    (hc : c ∈ l.commands) (hc' : c' ∈ l.commands)
    (heq : before ++ c :: behind = before' ++ c' :: behind') :
    before = before' ∧ c = c' ∧ behind = behind' := by
  induction h generalizing before' js with
  | nil =>
    cases h' with
    | nil => simpa using heq
    | cons hw' =>
      obtain ⟨rfl, -⟩ := List.cons.inj heq
      exact absurd hw' (not_takes_of_mem_commands hc)
    | ended ho => cases hoperand.symm.trans ho
  | cons hw _ ih =>
    cases h' with
    | nil =>
      obtain ⟨rfl, -⟩ := List.cons.inj heq
      exact absurd hw (not_takes_of_mem_commands hc')
    | cons hw' hws' =>
      obtain ⟨rfl, htail⟩ := List.cons.inj heq
      obtain ⟨-, rfl⟩ := hw.unique hw'
      obtain ⟨rfl, rfl, rfl⟩ := ih hws' htail
      exact ⟨rfl, rfl, rfl⟩
    | ended ho => cases hoperand.symm.trans ho
  | ended ho => cases hoperand.symm.trans ho

/-! ## Words put among others -/

/-- Words that spell items, behind which no option is open and the options have not ended. -/
def Whole (l : Level) (ws : List String) : Prop :=
  Reading.endOfOptions ∉ ws ∧ ∃ is, l.Spells none ws is

lemma Spells.append (hend : Reading.endOfOptions ∉ pre) (hpre : l.Spells o pre is)
    (hpost : l.Spells none post js) : l.Spells o (pre ++ post) (is ++ js) := by
  induction hpre with
  | nil => exact hpost
  | cons hw _ ih =>
    rw [List.append_assoc]
    exact .cons hw (ih (List.not_mem_of_not_mem_cons hend))
  | ended => exact absurd List.mem_cons_self hend

/-- Behind whole words, items start anew. -/
lemma Spells.of_append (hend : Reading.endOfOptions ∉ pre) (hpre : l.Spells o pre is)
    (h : l.Spells o (pre ++ post) js) : ∃ ks, l.Spells none post ks ∧ js = is ++ ks := by
  induction hpre generalizing js with
  | nil => exact ⟨js, h, rfl⟩
  | cons hw _ ih =>
    cases h with
    | cons hw' hws' =>
      obtain ⟨rfl, rfl⟩ := hw.unique hw'
      obtain ⟨ks, hks, rfl⟩ := ih (List.not_mem_of_not_mem_cons hend) hws'
      exact ⟨ks, hks, by rw [List.append_assoc]⟩
    | ended => exact absurd hw not_takes_endOfOptions
  | ended => exact absurd List.mem_cons_self hend

section

variable (hletter : l.lettered? 'v' = some (.switch .verbose))

include hletter

lemma takes_verboseWord (hlevel : verboseWord ∉ l.commands) :
    l.Takes none verboseWord [.switch .verbose] none :=
  .word hlevel (by decide) (.letters (by decide) (.switch hletter .nil))

/-- The word `-v` is neither the value of an option nor an operand. -/
lemma Takes.eq_of_verboseWord (h : l.Takes o verboseWord is o') :
    o = none ∧ is = [.switch .verbose] ∧ o' = none ∧ verboseWord ∉ l.commands := by
  have hplain : isPlain verboseWord = false := by decide
  cases h with
  | word hlevel _ h =>
    obtain ⟨rfl, rfl⟩ := h.unique (.letters (by decide) (.switch hletter .nil))
    exact ⟨rfl, rfl, rfl, hlevel⟩
  | value hw => exact absurd hw (by simp [hplain])
  | operand _ _ hw => exact absurd hw (by simp [hplain])

/-- A word `-v` among others stands behind whole words and is a switch of its own, or else it stands
behind the end of the options and is an operand. -/
lemma Spells.of_insert (h : l.Spells o (pre ++ verboseWord :: post) is) :
    (∃ js ks, Reading.endOfOptions ∉ pre ∧ l.Spells o pre js ∧ l.Spells none post ks ∧
      is = js ++ .switch .verbose :: ks) ∨
    ∃ js ks operand, l.operand = some operand ∧ l.Spells o (pre ++ post) (js ++ ks) ∧
      is = js ++ .value operand verboseWord :: ks := by
  induction pre generalizing o is with
  | nil =>
    rw [List.nil_append] at h
    generalize hw : verboseWord = w at h
    cases h with
    | cons htakes hpost =>
      obtain ⟨rfl, rfl, rfl, -⟩ := (hw ▸ htakes).eq_of_verboseWord hletter
      exact .inl ⟨[], _, List.not_mem_nil, .nil, hpost, rfl⟩
    | ended => exact absurd hw (by decide)
  | cons w pre ih =>
    cases h with
    | cons hw hws =>
      obtain ⟨js, ks, hend, hjs, hks, rfl⟩ | ⟨js, ks, operand, ho, hjs, rfl⟩ := ih hws
      · have hne : w ≠ Reading.endOfOptions := by
          rintro rfl
          exact not_takes_endOfOptions hw
        exact .inl ⟨_, ks, List.not_mem_cons_of_ne_of_not_mem hne.symm hend, .cons hw hjs, hks,
          by rw [List.append_assoc]⟩
      · refine .inr ⟨_, ks, operand, ho, ?_, (List.append_assoc ..).symm⟩
        rw [List.append_assoc]
        exact .cons hw hjs
    | @ended operand _ ho hlevel =>
      refine .inr ⟨pre.map (.value operand), post.map (.value operand), operand, ho, ?_, by simp⟩
      rw [← List.map_append]
      exact .ended ho hlevel

/-- Behind whole words a word `-v` asks once more. -/
lemma Spells.insert (hlevel : verboseWord ∉ l.commands) (hpre : l.Whole pre)
    (h : l.Spells none (pre ++ post) is) :
    ∃ is', l.Spells none (pre ++ verboseWord :: post) is' ∧ AsksOnceMore is is' := by
  obtain ⟨hend, js, hjs⟩ := hpre
  obtain ⟨ks, hks, rfl⟩ := hjs.of_append hend h
  exact ⟨_, hjs.append hend (.cons (takes_verboseWord hletter hlevel) hks), js, ks, rfl, rfl⟩

/-- A word `-v` among others asks once more, behind whole words, or it is an operand. -/
lemma Spells.asksOnceMore_or (h : l.Spells none (pre ++ post) is)
    (h' : l.Spells none (pre ++ verboseWord :: post) is') :
    l.Whole pre ∧ AsksOnceMore is is' ∨
      ∃ js ks operand, l.operand = some operand ∧ is = js ++ ks ∧
        is' = js ++ .value operand verboseWord :: ks := by
  obtain ⟨js, ks, hend, hjs, hks, rfl⟩ | ⟨js, ks, operand, ho, hspells, rfl⟩ :=
    h'.of_insert hletter
  · exact .inl ⟨⟨hend, js, hjs⟩, js, ks, h.unique (hjs.append hend hks), rfl⟩
  · exact .inr ⟨js, ks, operand, ho, h.unique hspells, rfl⟩

/-- On a level without an operand, a word `-v` among the words does not change where the level
ends. -/
lemma Spells.cut_insert {front behind behind' : List String} {c c' : String}
    (hoperand : l.operand = none) (hlevel : verboseWord ∉ l.commands)
    (h : l.Spells o (pre ++ post) is) (h' : l.Spells o front js) (hc : c ∈ l.commands)
    (hc' : c' ∈ l.commands)
    (heq : front ++ c' :: behind' = pre ++ verboseWord :: (post ++ c :: behind)) :
    front = pre ++ verboseWord :: post ∧ c' = c ∧ behind' = behind := by
  induction pre generalizing o front is js with
  | nil =>
    cases h' with
    | nil =>
      obtain ⟨rfl, -⟩ := List.cons.inj heq
      exact absurd hc' hlevel
    | cons hw hfront =>
      obtain ⟨rfl, htail⟩ := List.cons.inj heq
      obtain ⟨rfl, -, rfl, -⟩ := hw.eq_of_verboseWord hletter
      obtain ⟨rfl, rfl, rfl⟩ := hfront.cut_unique hoperand h hc' hc htail
      exact ⟨rfl, rfl, rfl⟩
    | ended ho => cases hoperand.symm.trans ho
  | cons w pre ih =>
    cases h with
    | cons hw hpre =>
      cases h' with
      | nil =>
        obtain ⟨rfl, -⟩ := List.cons.inj heq
        exact absurd hw (not_takes_of_mem_commands hc')
      | cons hw' hfront =>
        obtain ⟨rfl, htail⟩ := List.cons.inj heq
        obtain ⟨-, rfl⟩ := hw.unique hw'
        obtain ⟨rfl, rfl, rfl⟩ := ih hpre hfront htail
        exact ⟨rfl, rfl, rfl⟩
      | ended ho => cases hoperand.symm.trans ho
    | ended ho => cases hoperand.symm.trans ho

end

end Level

end BuildLens
