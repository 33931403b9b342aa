/-
How much is logged.

The words of a command line are laid out in two levels, each of which spells its items
(`CommandLine.Layout`).  They are laid out in one way at most, and the line is accepted exactly if
there is such a layout whose items can be noted (`CommandLine.read_eq_ok_iff`).

More output may be asked for on both levels, but they are not added up: what is asked for behind the
name of the command counts, and only if nothing is asked for there, what is asked for in front.  So
one more word `-v` in front of the name never makes that less is logged, but behind it the first one
does if it stands against two or more in front (`CommandLine.verbosity_of_read`).
-/
import BuildLens.Command.Line
import BuildLens.Proofs.Command.Reading

namespace BuildLens

/-- How much is logged, as a number: a level includes those of lower rank. -/
def LogLevel.rank : LogLevel → Nat
  | .warn => 0
  | .info => 1
  | .debug => 2
  | .trace => 3

/-! ## Names of commands -/

namespace CommandName

lemma ofText_eq_some_iff {s : String} {c : CommandName} : ofText s = some c ↔ s = c.text := by
  constructor
  · intro h
    exact (by simpa using List.find?_some h : c.text = s).symm
  · rintro rfl
    cases c <;> rfl

lemma text_injective : Function.Injective text := by
  intro c c' h
  rw [← Option.some_inj, ← ofText_eq_some_iff.mpr rfl, h, ofText_eq_some_iff.mpr rfl]

lemma text_mem_commands (c : CommandName) : c.text ∈ Level.first.commands := by
  cases c <;> decide

lemma name_ne_of_mem_options (c : CommandName) :
    ∀ o ∈ (Level.ofCommand c).options, o.name ≠ operandName := by
  cases c <;> decide

lemma lettered?_verbose (c : CommandName) :
    (Level.ofCommand c).lettered? 'v' = some (.switch .verbose) := by
  cases c <;> rfl

end CommandName

namespace CommandLine

open CommandName

/-! ## Layouts -/

/-- A command line, laid out in its two levels and their items. -/
structure Layout where
  /-- The words in front of the name of the command. -/
  before : List String
  /-- The items that they spell. -/
  first : List Item
  /-- The name of the command. -/
  name : CommandName
  /-- The words behind it. -/
  behind : List String
  /-- The items that they spell. -/
  second : List Item
  spells_before : Level.first.Spells none before first
  spells_behind : (Level.ofCommand name).Spells none behind second

namespace Layout

/-- The words that are laid out. -/
def words (t : Layout) : List String :=
  t.before ++ t.name.text :: t.behind

/-- The items can be noted, a file is among them, and a given line comes of them. -/
def Gives (t : Layout) (env : Environment) (line : CommandLine) : Prop :=
  ∃ r₁ r₂ r₃ file, Reading.gather {} t.first = .ok r₁ ∧ Reading.gather {} t.second = .ok r₂ ∧
    r₂.fillIn env (Level.ofCommand t.name).options = .ok r₃ ∧
    r₃.value? operandName = some file ∧ line = ofReadings r₁ r₃ (r₃.command file t.name)

/-- Words are laid out in one way at most. -/
lemma eq_of_words_eq {t t' : Layout} (h : t.words = t'.words) : t = t' := by
  obtain ⟨before, first, name, behind, second, hfirst, hsecond⟩ := t
  obtain ⟨before', first', name', behind', second', hfirst', hsecond'⟩ := t'
  obtain ⟨rfl, hname, rfl⟩ := hfirst.cut_unique rfl hfirst' (text_mem_commands name)
    (text_mem_commands name') h
  obtain rfl := text_injective hname
  obtain rfl := hfirst.unique hfirst'
  obtain rfl := hsecond.unique hsecond'
  rfl

end Layout

variable {env : Environment} {words pre post : List String} {line line' : CommandLine}
  {name : CommandName} {t t' : Layout}

/-- The level of a command ends with the line. -/
lemma rest_of_words {r : Reading} {rest : Option (String × List String)}
    (h : Reading.words (Level.ofCommand name) false {} words = .ok (r, rest)) : rest = none := by
  cases rest with
  | none => rfl
  | some p => exact absurd (Reading.mem_commands_of_words h p rfl) List.not_mem_nil

lemma readCommand_eq_ok_iff {r₃ : Reading} {command : Command} :
    readCommand env name words = .ok (r₃, command) ↔
      ∃ is r₂ file, (Level.ofCommand name).Spells none words is ∧
        Reading.gather {} is = .ok r₂ ∧
        r₂.fillIn env (Level.ofCommand name).options = .ok r₃ ∧
        r₃.value? operandName = some file ∧ command = r₃.command file name := by
  have hlevel : (none : Option (String × List String)).isSome =
    (Level.ofCommand name).operand.isNone := rfl
  constructor
  · intro h
    obtain ⟨⟨r₁, rest⟩, hwords, h⟩ := bind_eq_ok_iff.mp h
    obtain rfl := rest_of_words hwords
    obtain ⟨r₂, hsettle, h⟩ := bind_eq_ok_iff.mp h
    obtain ⟨r₃', hfill, h⟩ := bind_eq_ok_iff.mp h
    obtain ⟨front, is, hfront, -, hspells, hgather⟩ :=
      (Reading.words_iff hlevel).mp ⟨r₁, hwords, hsettle⟩
    rw [Reading.remainder, List.append_nil] at hfront
    split at h
    next => contradiction
    next file hfile =>
      cases h
      exact ⟨is, r₂, file, hfront ▸ hspells, hgather, hfill, hfile, rfl⟩
  · rintro ⟨is, r₂, file, hspells, hgather, hfill, hfile, rfl⟩
    obtain ⟨r₁, hwords, hsettle⟩ := (Reading.words_iff hlevel).mpr
      ⟨words, is, (List.append_nil _).symm, by simp, hspells, hgather⟩
    refine bind_eq_ok_iff.mpr ⟨(r₁, none), hwords, bind_eq_ok_iff.mpr ⟨r₂, hsettle,
      bind_eq_ok_iff.mpr ⟨r₃, hfill, ?_⟩⟩⟩
    rw [hfile]
    rfl

/-- A command line is accepted exactly if it has a layout whose items can be taken notice of. -/
theorem read_eq_ok_iff :
    read env words = .ok line ↔ ∃ t : Layout, t.words = words ∧ t.Gives env line := by
  constructor
  · intro h
    obtain ⟨⟨r, rest⟩, hwords, h⟩ := bind_eq_ok_iff.mp h
    rcases rest with _ | ⟨c, behind⟩
    · obtain ⟨_, -, h⟩ := bind_eq_ok_iff.mp h
      contradiction
    · dsimp only at h
      split at h
      next => contradiction
      next name hname =>
        obtain ⟨⟨r₃, command⟩, hcommand, h⟩ := bind_eq_ok_iff.mp h
        obtain ⟨r₁, hsettle, h⟩ := bind_eq_ok_iff.mp h
        cases h
        obtain ⟨before, first, rfl, -, hfirst, hgather⟩ :=
          (Reading.words_iff (by rfl)).mp ⟨r, hwords, hsettle⟩
        obtain ⟨second, r₂, file, hsecond, hgather', hfill, hfile, rfl⟩ :=
          readCommand_eq_ok_iff.mp hcommand
        obtain rfl := ofText_eq_some_iff.mp hname
        exact ⟨⟨before, first, name, behind, second, hfirst, hsecond⟩, rfl, r₁, r₂, r₃, file,
          hgather, hgather', hfill, hfile, rfl⟩
  · rintro ⟨t, rfl, r₁, r₂, r₃, file, hgather, hgather', hfill, hfile, rfl⟩
    have hlevel : (some (t.name.text, t.behind)).isSome = Level.first.operand.isNone := rfl
    obtain ⟨r, hwords, hsettle⟩ := (Reading.words_iff hlevel).mpr
      ⟨t.before, t.first, rfl, by simp [text_mem_commands], t.spells_before, hgather⟩
    have hcommand : readCommand env t.name t.behind = .ok (r₃, r₃.command file t.name) :=
      readCommand_eq_ok_iff.mpr
        ⟨t.second, r₂, file, t.spells_behind, hgather', hfill, hfile, rfl⟩
    refine bind_eq_ok_iff.mpr ⟨_, hwords, ?_⟩
    dsimp only
    rw [ofText_eq_some_iff.mpr rfl]
    exact bind_eq_ok_iff.mpr ⟨_, hcommand, bind_eq_ok_iff.mpr ⟨r₁, hsettle, rfl⟩⟩

/-- The operand is given among the items of a line that is accepted. -/
lemma Layout.Gives.exists_operand (h : t.Gives env line) :
    ∃ o v, .value o v ∈ t.second ∧ o.name = operandName := by
  obtain ⟨-, r₂, r₃, file, -, hgather, hfill, hfile, -⟩ := h
  have hvalues : r₂.values = t.second.filterMap Reading.setting? := by
    rw [Reading.gather_eq rfl (Nat.zero_le _) hgather, List.nil_append]
  exact Reading.exists_item_of_value? hvalues hfill (name_ne_of_mem_options t.name) hfile

/-! ## A flag among the words -/

/-- A layout may ask once more in front of the name of the command. -/
lemma Layout.Gives.of_first (h : t.Gives env line) (t' : Layout) (hname : t'.name = t.name)
    (hfirst : AsksOnceMore t.first t'.first) (hsecond : t'.second = t.second) :
    ∃ line', t'.Gives env line' := by
  obtain ⟨r₁, r₂, r₃, file, hgather, hgather', hfill, hfile, -⟩ := h
  rw [← hsecond] at hgather'
  rw [← hname] at hfill
  exact ⟨_, _, r₂, r₃, file, Reading.gather_of_asksOnceMore hfirst hgather, hgather', hfill,
    hfile, rfl⟩

/-- A layout may ask once more behind the name of the command. -/
lemma Layout.Gives.of_second (h : t.Gives env line) (t' : Layout) (hname : t'.name = t.name)
    (hfirst : t'.first = t.first) (hsecond : AsksOnceMore t.second t'.second) :
    ∃ line', t'.Gives env line' := by
  obtain ⟨r₁, r₂, r₃, file, hgather, hgather', hfill, hfile, -⟩ := h
  rw [← hfirst] at hgather
  rw [← hname] at hfill
  exact ⟨_, r₁, _, _, file, hgather, Reading.gather_of_asksOnceMore hsecond hgather',
    Reading.fillIn_louder hfill, hfile, rfl⟩

/-- In front of the name of the command a word `-v` may stand where an item ends. -/
lemma exists_read_front (h : t.Gives env line) (hbefore : t.before = pre ++ post)
    (hpre : Level.first.Whole pre) :
    ∃ line', read env (pre ++ verboseWord :: (post ++ t.name.text :: t.behind)) = .ok line' := by
  obtain ⟨is, hspells, hasks⟩ := Level.Spells.insert rfl (by decide) hpre
    (hbefore ▸ t.spells_before)
  let t' : Layout := { t with
    before := pre ++ verboseWord :: post, first := is, spells_before := hspells }
  obtain ⟨line', hgives⟩ := h.of_first t' rfl hasks rfl
  refine ⟨line', read_eq_ok_iff.mpr ⟨t', ?_, hgives⟩⟩
  rw [Layout.words, List.append_assoc, List.cons_append]

/-- It stands nowhere else there, and asks once more. -/
lemma asksOnceMore_front (hbefore : t.before = pre ++ post)
    (hread : read env (pre ++ verboseWord :: (post ++ t.name.text :: t.behind)) = .ok line') :
    Level.first.Whole pre ∧ ∃ t' : Layout, t'.Gives env line' ∧
      AsksOnceMore t.first t'.first ∧ t'.second = t.second := by
  obtain ⟨⟨front, first, name, behind, second, hfirst, hsecond⟩, hwords, hgives⟩ :=
    read_eq_ok_iff.mp hread
  have hspells : Level.first.Spells none (pre ++ post) t.first := hbefore ▸ t.spells_before
  obtain ⟨rfl, hname, rfl⟩ := hspells.cut_insert rfl rfl (by decide) hfirst
    (text_mem_commands t.name) (text_mem_commands name) hwords
  obtain rfl := text_injective hname
  obtain rfl := t.spells_behind.unique hsecond
  obtain ⟨hpre, hasks⟩ | ⟨js, ks, operand, ho, -⟩ := hspells.asksOnceMore_or rfl hfirst
  · exact ⟨hpre, _, hgives, hasks, rfl⟩
  · contradiction

/-- Behind the name of the command a word `-v` may stand where an item ends. -/
lemma exists_read_behind (h : t.Gives env line) (hbehind : t.behind = pre ++ post)
    (hpre : (Level.ofCommand t.name).Whole pre) :
    ∃ line', read env (t.before ++ t.name.text :: (pre ++ verboseWord :: post)) = .ok line' := by
  obtain ⟨is, hspells, hasks⟩ := Level.Spells.insert (lettered?_verbose t.name)
    List.not_mem_nil hpre (hbehind ▸ t.spells_behind)
  let t' : Layout := { t with
    behind := pre ++ verboseWord :: post, second := is, spells_behind := hspells }
  obtain ⟨line', hgives⟩ := h.of_second t' rfl rfl hasks
  exact ⟨line', read_eq_ok_iff.mpr ⟨t', rfl, hgives⟩⟩

/-- It stands nowhere else there, and asks once more: as an operand it would be the second one. -/
lemma asksOnceMore_behind (h : t.Gives env line) (hbehind : t.behind = pre ++ post)
    (hread : read env (t.before ++ t.name.text :: (pre ++ verboseWord :: post)) = .ok line') :
    (Level.ofCommand t.name).Whole pre ∧ ∃ t' : Layout, t'.Gives env line' ∧
      t'.first = t.first ∧ AsksOnceMore t.second t'.second := by
  obtain ⟨⟨before, first, name, behind, second, hfirst, hsecond⟩, hwords, hgives⟩ :=
    read_eq_ok_iff.mp hread
  obtain ⟨rfl, hname, rfl⟩ := hfirst.cut_unique rfl t.spells_before (text_mem_commands name)
    (text_mem_commands t.name) hwords
  obtain rfl := text_injective hname
  have hspells : (Level.ofCommand t.name).Spells none (pre ++ post) t.second :=
    hbehind ▸ t.spells_behind
  obtain ⟨hpre, hasks⟩ | ⟨js, ks, operand, ho, hjs, rfl⟩ :=
    hspells.asksOnceMore_or (lettered?_verbose t.name) hsecond
  · exact ⟨hpre, _, hgives, hfirst.unique t.spells_before, hasks⟩
  · obtain ⟨o, v, hmem, hname⟩ := h.exists_operand
    obtain ⟨-, r₂, -, -, -, hgather, -⟩ := hgives
    cases ho
    exact absurd hname (Reading.ne_of_gather hgather (hjs ▸ hmem))

/-! ## Verbosity -/

/-- What is asked for behind the name of the command counts, if anything is. -/
lemma verbosity_of_gives (h : t.Gives env line) :
    line.verbosity = min (if asked t.second = 0 then asked t.first else asked t.second) 255 := by
  obtain ⟨r₁, r₂, r₃, file, hfirst, hsecond, hfill, -, rfl⟩ := h
  obtain ⟨vs, rfl, -⟩ := Reading.exists_values_of_fillIn hfill
  rw [Reading.gather_eq rfl (Nat.zero_le _) hfirst, Reading.gather_eq rfl (Nat.zero_le _) hsecond,
    ofReadings]
  simp only [Nat.zero_add, maxVerbosity]
  split <;> split <;> omega

lemma rank_logLevel (line : CommandLine) : line.logLevel.rank = min line.verbosity 3 := by
  obtain ⟨_ | _ | _ | n, _, _⟩ := line
  · rfl
  · rfl
  · rfl
  · exact (Nat.min_eq_right (Nat.le_add_left 3 n)).symm

/-- The words of an accepted line are laid out in one way.  The verbosity is how often more output
is asked for behind the name of the command, or, if it is not asked for there, in front of it, and
255 at most.  One more word `-v` is accepted just where an item ends.  In front of the name of the
command it never makes that less is logged.  Behind it, less is logged just if more output was not
asked for there before, and at least twice in front. -/
theorem verbosity_of_read (h : read env words = .ok line) :
    (∃! t : Layout, t.words = words) ∧ ∀ t : Layout, t.words = words →
      line.verbosity = min (if asked t.second = 0 then asked t.first else asked t.second) 255 ∧
      (∀ pre post, t.before = pre ++ post →
        let longer := pre ++ verboseWord :: (post ++ t.name.text :: t.behind)
        ((∃ line', read env longer = .ok line') ↔ Level.first.Whole pre) ∧
        ∀ line', read env longer = .ok line' → line.logLevel.rank ≤ line'.logLevel.rank) ∧
      ∀ pre post, t.behind = pre ++ post →
        let longer := t.before ++ t.name.text :: (pre ++ verboseWord :: post)
        ((∃ line', read env longer = .ok line') ↔ (Level.ofCommand t.name).Whole pre) ∧
        ∀ line', read env longer = .ok line' →
          (line'.logLevel.rank < line.logLevel.rank ↔
            asked t.second = 0 ∧ 2 ≤ asked t.first) := by
  obtain ⟨t, rfl, ht⟩ := read_eq_ok_iff.mp h
  refine ⟨⟨t, rfl, fun t' ht' => Layout.eq_of_words_eq ht'⟩, fun t' ht' => ?_⟩
  obtain rfl := Layout.eq_of_words_eq ht'
  have hverbosity := verbosity_of_gives ht
  refine ⟨hverbosity, fun pre post hbefore => ⟨⟨?_, exists_read_front ht hbefore⟩, ?_⟩,
    fun pre post hbehind => ⟨⟨?_, exists_read_behind ht hbehind⟩, ?_⟩⟩
  · rintro ⟨line', hread⟩
    exact (asksOnceMore_front hbefore hread).1
  · intro line' hread
    obtain ⟨-, t'', ht'', hfirst, hsecond⟩ := asksOnceMore_front hbefore hread
    rw [rank_logLevel, rank_logLevel, hverbosity, verbosity_of_gives ht'', hsecond,
      hfirst.asked_eq]
    split <;> omega
  · rintro ⟨line', hread⟩
    exact (asksOnceMore_behind ht hbehind hread).1
  · intro line' hread
    obtain ⟨-, t'', ht'', hfirst, hsecond⟩ := asksOnceMore_behind ht hbehind hread
    rw [rank_logLevel, rank_logLevel, hverbosity, verbosity_of_gives ht'', hfirst,
      hsecond.asked_eq, if_neg (Nat.succ_ne_zero _)]
    split <;> omega

/-- A line that asks for more output on both levels, with values and an operand that look as if they
did so too: `-v --artifact-dir replay show -vvp-v --function=-v --verbose -- -v`. -/
def clusteredLine : Layout where
  before := ["-v", "--artifact-dir", "replay"]
  first := [.switch .verbose, .value artifactDirOption "replay"]
  name := .show
  behind := ["-vvp-v", "--function=-v", "--verbose", "--", "-v"]
  second :=
    [.switch .verbose, .switch .verbose, .value { name := "project", letter := some 'p' } "-v",
      .value functionOption "-v", .switch .verbose,
      .value { name := operandName, kind := .path } "-v"]
  spells_before := by
    have hflag := Level.takes_verboseWord (l := .first) rfl (by decide)
    have hoption : Level.first.Takes none "--artifact-dir" _ _ :=
      .word (by decide) (by decide) (.opened (by decide) rfl)
    have hvalue : Level.first.Takes (some artifactDirOption) "replay" _ _ := .value (by decide)
    exact .cons hflag (.cons hoption (.cons hvalue .nil))
  spells_behind := by
    have hletters : Level.Takes (.ofCommand .show) none "-vvp-v" _ _ :=
      .word (by decide) (by decide)
        (.letters (by decide) (.switch rfl (.switch rfl (.joined rfl (by decide)))))
    have hfunction : Level.Takes (.ofCommand .show) none "--function=-v" _ _ :=
      .word (by decide) (by decide)
        (@Level.Word.assigned _ "function".toList "-v".toList _ (by decide) rfl)
    have hverbose : Level.Takes (.ofCommand .show) none "--verbose" _ _ :=
      .word (by decide) (by decide) (.switch (by decide) rfl)
    exact .cons hletters (.cons hfunction (.cons hverbose (.ended rfl (by decide))))

/-- What comes of that line. -/
def clusteredRequest : CommandLine where
  verbosity := 3
  artifactDir := some "replay"
  command := .show { file := "-v", project := some "-v", function := some "-v" }

theorem verbosity_of_read_of_clusteredLine :
    read (fun _ => none) clusteredLine.words = .ok clusteredRequest ∧
      asked clusteredLine.first = 1 ∧ asked clusteredLine.second = 3 ∧
      clusteredRequest.verbosity = min 3 255 ∧
      (∃ line', read (fun _ => none) ("-v" :: "-v" :: clusteredLine.words.tail) = .ok line' ∧
        clusteredRequest.logLevel.rank ≤ line'.logLevel.rank) ∧
      ¬ Level.first.Whole ["-v", "--artifact-dir"] := by
  have hread : read (fun _ => none) clusteredLine.words = .ok clusteredRequest := rfl
  obtain ⟨hverbosity, hfront, -⟩ := (verbosity_of_read hread).2 clusteredLine rfl
  obtain ⟨-, hrank⟩ := hfront ["-v"] ["--artifact-dir", "replay"] rfl
  obtain ⟨hwhole, -⟩ := hfront ["-v", "--artifact-dir"] ["replay"] rfl
  refine ⟨hread, rfl, rfl, hverbosity, ⟨_, rfl, hrank _ rfl⟩, ?_⟩
  rw [← hwhole]
  rintro ⟨line', h⟩
  cases h

/-- More output is asked for twice in front and once behind: `-vv replay -v events`. -/
def crossedLine : Layout where
  before := ["-vv"]
  first := [.switch .verbose, .switch .verbose]
  name := .replay
  behind := ["-v", "events"]
  second := [.switch .verbose, .value { name := operandName, kind := .path } "events"]
  spells_before := by
    have hletters : Level.first.Takes none "-vv" _ _ :=
      .word (by decide) (by decide) (.letters (by decide) (.switch rfl (.switch rfl .nil)))
    exact .cons hletters .nil
  spells_behind := by
    have hflag := Level.takes_verboseWord (l := .ofCommand .replay) rfl (by decide)
    exact .cons hflag (.cons (.operand rfl (by decide) (by decide)) .nil)

/-- The levels are not added up, and one more word `-v` makes that less is logged. -/
theorem levels_not_added :
    ∃ line line' : CommandLine,
      read (fun _ => none) ["-vv", "replay", "events"] = .ok line ∧
      crossedLine.words = ["-vv", "replay", "-v", "events"] ∧
      read (fun _ => none) crossedLine.words = .ok line' ∧
      asked crossedLine.first + asked crossedLine.second = 3 ∧ line'.verbosity = 1 ∧
      line'.logLevel.rank < line.logLevel.rank :=
  ⟨⟨2, none, .replay "events" none⟩, ⟨1, none, .replay "events" none⟩, rfl, rfl, rfl, rfl, rfl,
    by decide⟩

end CommandLine

end BuildLens
