/-
Looking for the generated file.

When the compiler is done and the options are put back, a session looks for the file that it has
asked for.  A listing is read where it lies; of preprocessed source a copy without empty lines is
made and read in its place.  Where such copies can be made, it is the same in both modes whether the
file is shown: it is if there is a file that can be read (`Session.ends_of_locating`).

Why it is not shown differs.  If nothing is there, the file is missing in both modes.  A directory,
or a file that must not be read, counts as a missing listing; but where preprocessed source is
expected it is an error of reading, because the file is read for the copy first
(`Session.directory_not_missing`).
-/
import BuildLens.Proofs.Files.Tree
import BuildLens.Proofs.Session.Step

namespace BuildLens

open BuildLens.Text

/-! ## Copies -/

namespace FileTree

variable {t t' : FileTree} {source directory path : String} {content : Bytes} {e : IoError}

lemma exists?_of_read (h : t.read path = .ok content) : t.exists? path = true := by
  obtain ⟨f, hlookup, -⟩ := read_eq_ok_iff.mp h
  exact exists?_iff.mpr ⟨_, hlookup⟩

/-- A new copy can be made in a directory, whatever it contains.  The directory is there, or is
made. -/
def Writable (t : FileTree) (directory : String) : Prop :=
  ∃ t', t.createDirectories directory = (.ok (), t') ∧
    ∀ content, ∃ t'', t'.write (freshCopyPath t' directory) content = .ok t''

/-- A path that leads to nothing can be written to if it can be followed. -/
lemma exists_write_of_free (hfree : t.exists? path = false)
    (hresolve : (t.resolve path).isOk = true) (content : Bytes) :
    ∃ t', t.write path content = .ok t' := by
  cases htrail : t.resolve path with
  | error e => simp [htrail, Except.isOk, Except.toBool] at hresolve
  | ok trail =>
    have hnothing : trail.here = none := by
      cases hhere : trail.here with
      | none => rfl
      | some x =>
        have hexists := exists?_iff.mpr ⟨x, lookup_eq_ok_iff.mpr ⟨trail, htrail, hhere⟩⟩
        exact absurd (hfree.symm.trans hexists) (by simp)
    exact ⟨_, bind_eq_ok_iff.mpr ⟨trail, htrail, by rw [hnothing]⟩⟩

lemma freshCopyPath_free (t : FileTree) (directory : String) :
    t.exists? (freshCopyPath t directory) = false :=
  t.freshPath_free directory (by decide) (by decide)

/-- Where copies can be made is known from what becomes of the directory. -/
lemma writable_iff : t.Writable directory ↔
    (t.createDirectories directory).1.isOk = true ∧
      ((t.createDirectories directory).2.resolve
        (freshCopyPath (t.createDirectories directory).2 directory)).isOk = true := by
  rcases hmade : t.createDirectories directory with ⟨result, t'⟩
  constructor
  · rintro ⟨t₁, hok, hwritten⟩
    obtain ⟨rfl, rfl⟩ := Prod.mk.inj (hmade.symm.trans hok)
    obtain ⟨t₂, hwrite⟩ := hwritten []
    obtain ⟨trail, hresolve, -⟩ := bind_eq_ok_iff.mp hwrite
    exact ⟨rfl, by rw [hresolve]; rfl⟩
  · rintro ⟨hok, hresolve⟩
    cases result with
    | error e => simp [Except.isOk, Except.toBool] at hok
    | ok =>
      exact ⟨t', hmade, exists_write_of_free (t'.freshCopyPath_free directory) hresolve⟩

instance (t : FileTree) (directory : String) : Decidable (t.Writable directory) :=
  decidable_of_iff _ writable_iff.symm

end FileTree

section

variable {t t' : FileTree} {source directory path : String} {content : Bytes} {e : IoError}

/-- What cannot be read cannot be copied, and no directory is made for it. -/
lemma stripEmptyLines_of_error (h : t.read source = .error e) (directory : String) :
    stripEmptyLines t source directory = (.error e, t) := by
  rw [stripEmptyLines, h]

/-- What can be read can be copied to where new files can be made. -/
lemma exists_stripEmptyLines (h : t.read source = .ok content) (hw : t.Writable directory) :
    ∃ path t', stripEmptyLines t source directory = (.ok path, t') := by
  obtain ⟨t₁, hmade, hwritten⟩ := hw
  obtain ⟨t₂, hwrite⟩ := hwritten (strippedBytes content)
  refine ⟨freshCopyPath t₁ directory, t₂, ?_⟩
  rw [stripEmptyLines, h]
  dsimp only
  rw [hmade]
  dsimp only
  rw [hwrite]

/-- A copy can be read. -/
lemma read_stripEmptyLines (h : stripEmptyLines t source directory = (.ok path, t')) :
    ∃ content, t.read source = .ok content ∧ t'.read path = .ok (strippedBytes content) := by
  rw [stripEmptyLines] at h
  split at h
  next => exact absurd (Prod.mk.inj h).1 (by simp)
  next content hread =>
    split at h
    next => exact absurd (Prod.mk.inj h).1 (by simp)
    next t₁ _ =>
      dsimp only at h
      split at h
      next => exact absurd (Prod.mk.inj h).1 (by simp)
      next t₂ hwrite =>
        obtain ⟨⟨rfl⟩, rfl⟩ := Prod.mk.inj h
        -- the copy is a new file
        refine ⟨content, hread, FileTree.read_write hwrite fun f hf => ?_⟩
        have hexists := FileTree.exists?_iff.mpr ⟨_, hf⟩
        exact absurd ((t₁.freshCopyPath_free directory).symm.trans hexists) (by simp)

end

/-! ## What is shown in place of the file -/

namespace Session

variable {σ : Type} {config : SessionConfig} {mode : Mode} {artifact path : String}
  {w w' : World σ} {content : Bytes}

/-- What is shown in place of a file that can be read can be read. -/
lemma read_readable (hread : w.files.read artifact = .ok content)
    (hready : readable config mode artifact w = (.ok path, w')) :
    ∃ shown, w'.files.read path = .ok shown := by
  cases mode with
  | assembly =>
    obtain ⟨⟨rfl⟩, rfl⟩ := Prod.mk.inj hready
    exact ⟨content, hread⟩
  | preprocessed =>
    rw [readable] at hready
    dsimp only at hready
    obtain ⟨hpath, rfl⟩ := Prod.mk.inj hready
    have hstrip : stripEmptyLines w.files artifact config.artifactDir =
        (.ok path, (stripEmptyLines w.files artifact config.artifactDir).2) := Prod.ext hpath rfl
    obtain ⟨source, -, hshown⟩ := read_stripEmptyLines hstrip
    exact ⟨_, hshown⟩

/-- Where copies can be made, there is something to be shown in place of a file that can be
read. -/
lemma exists_readable (hread : w.files.read artifact = .ok content)
    (hwritable : w.files.Writable config.artifactDir) (mode : Mode) :
    ∃ path w', readable config mode artifact w = (.ok path, w') := by
  cases mode with
  | assembly => exact ⟨artifact, w, rfl⟩
  | preprocessed =>
    obtain ⟨path, files, hstrip⟩ := exists_stripEmptyLines hread hwritable
    exact ⟨path, { w with files }, by rw [readable, hstrip]⟩

/-! ## How a session ends that looks for its file -/

/-- What a session makes of something that is there and cannot be read. -/
def unreadable (artifact : String) (e : IoError) : Mode → SessionError
  | .assembly => .artifactUnreadable artifact e
  | .preprocessed => .ofIo e

lemma kind_unreadable_iff {e : IoError} :
    (unreadable artifact e mode).kind ≠ .artifactMissing ↔ mode = .preprocessed := by
  cases mode <;> simp [unreadable, SessionError.artifactUnreadable, SessionError.ofIo]

section

variable {h : Host σ} {s : Session} {c : Capture} {e : IoError}

lemma locate_of_missing (hmissing : w.files.exists? artifact = false) :
    s.locate h config c artifact w =
      ((s.enter .locating).goTo (.failing (.artifactMissing artifact)), w) := by
  rw [locate, hmissing, if_neg Bool.false_ne_true]

lemma locate_of_unreadable (hexists : w.files.exists? artifact = true)
    (hread : w.files.read artifact = .error e) :
    s.locate h config c artifact w =
      ((s.enter .locating).goTo (.failing (unreadable artifact e s.mode)), w) := by
  rw [locate, if_pos hexists, enter_mode]
  cases s.mode with
  | assembly =>
    rw [readable]
    dsimp only
    rw [hread, unreadable]
  | preprocessed =>
    rw [readable, stripEmptyLines_of_error hread, unreadable]

lemma locate_of_read (hread : w.files.read artifact = .ok content)
    (hwritable : w.files.Writable config.artifactDir) :
    ∃ a, (s.locate h config c artifact w).1 =
      ((s.enter .locating).enter .succeeded).goTo (.ended (.shown a)) := by
  obtain ⟨path, w₁, hready⟩ := exists_readable hread hwritable s.mode
  obtain ⟨shown, hshown⟩ := read_readable hread hready
  rw [locate, if_pos (FileTree.exists?_of_read hread), enter_mode, hready]
  dsimp only
  rw [hshown]
  exact ⟨_, rfl⟩

/-- A session that looks for its file has ended after that, or tells why it fails. -/
lemma poll_locating (phase : s.phase = .locating c artifact) :
    s.poll h config w =
      (s.locate h config c artifact w).1.advance h config 1 (s.locate h config c artifact w).2 := by
  simp [poll, stepsLeft, phase, Phase.rank, advance, step, wait?]

lemma advance_ended {o : Outcome} (phase : s.phase = .ended o) :
    (s.advance h config 1 w).1 = s := by
  simp [advance, step, phase]

lemma advance_failing {e : SessionError} (phase : s.phase = .failing e) :
    (s.advance h config 1 w).1.outcome? = some (.failed e) := by
  simp [advance, step, phase, fail, wait?, outcome?]

/-- If nothing is there, the file is missing. -/
lemma ends_of_missing (phase : s.phase = .locating c artifact)
    (hmissing : w.files.exists? artifact = false) :
    (s.poll h config w).1.outcome? = some (.failed (.artifactMissing artifact)) := by
  rw [poll_locating phase, locate_of_missing hmissing]
  exact advance_failing rfl

/-- If something is there that cannot be read, the mode tells what becomes of that. -/
lemma ends_of_unreadable (phase : s.phase = .locating c artifact)
    (hexists : w.files.exists? artifact = true) (hread : w.files.read artifact = .error e) :
    (s.poll h config w).1.outcome? = some (.failed (unreadable artifact e s.mode)) := by
  rw [poll_locating phase, locate_of_unreadable hexists hread]
  exact advance_failing rfl

/-- If there is a file that can be read, the session succeeds. -/
lemma ends_of_read (phase : s.phase = .locating c artifact)
    (hread : w.files.read artifact = .ok content)
    (hwritable : w.files.Writable config.artifactDir) :
    ∃ a, (s.poll h config w).1.outcome? = some (.shown a) ∧
      (s.poll h config w).1.stage = .succeeded := by
  obtain ⟨a, hlocate⟩ := locate_of_read (h := h) (s := s) (c := c) hread hwritable
  rw [poll_locating phase, advance_ended (by rw [hlocate, goTo_phase]), hlocate]
  exact ⟨a, rfl, by simp [stage]⟩

/-- How a session ends that looks for its file, in either mode, where copies can be made.

If there is a file that can be read, the session succeeds in both modes.  If there is nothing, it
fails in both modes because the file is missing.  If there is something that cannot be read, it
fails in both modes as well, but only a listing counts as missing then: an error in reading
preprocessed source is an error of reading.  So a session that looks for a file fails for another
reason than that it is missing if, and only if, something is there that cannot be read and
preprocessed source is looked for. -/
theorem ends_of_locating (phase : s.phase = .locating c artifact)
    (writable : w.files.Writable config.artifactDir) :
    let ended (mode : Mode) : Session := (poll h config { s with mode } w).1
    (∀ content, w.files.read artifact = .ok content →
      ∀ mode, ∃ a, (ended mode).outcome? = some (.shown a) ∧ (ended mode).stage = .succeeded) ∧
    (w.files.exists? artifact = false →
      ∀ mode, (ended mode).outcome? = some (.failed (.artifactMissing artifact))) ∧
    (∀ e, w.files.exists? artifact = true → w.files.read artifact = .error e →
      (ended .assembly).outcome? = some (.failed (.artifactUnreadable artifact e)) ∧
      (ended .preprocessed).outcome? = some (.failed (.ofIo e))) ∧
    ∀ mode, (∃ e, (ended mode).outcome? = some (.failed e) ∧ e.kind ≠ .artifactMissing) ↔
      mode = .preprocessed ∧ w.files.exists? artifact = true ∧
        ∀ content, w.files.read artifact ≠ .ok content := by
  intro ended
  have hphase (mode : Mode) : ({ s with mode } : Session).phase = .locating c artifact := phase
  refine ⟨fun content hread mode => ends_of_read (hphase mode) hread writable,
    fun hmissing mode => ends_of_missing (hphase mode) hmissing,
    fun e hexists hread => ⟨ends_of_unreadable (hphase .assembly) hexists hread,
      ends_of_unreadable (hphase .preprocessed) hexists hread⟩, fun mode => ?_⟩
  cases hread : w.files.read artifact with
  | ok content =>
    obtain ⟨a, ha, -⟩ := ends_of_read (h := h) (hphase mode) hread writable
    simp [ended, ha]
  | error e =>
    cases hexists : w.files.exists? artifact with
    | false =>
      have he : (ended mode).outcome? = some (.failed (.artifactMissing artifact)) :=
        ends_of_missing (hphase mode) hexists
      simp [he, SessionError.artifactMissing]
    | true =>
      have he : (ended mode).outcome? = some (.failed (unreadable artifact e mode)) :=
        ends_of_unreadable (hphase mode) hexists hread
      simp [he, kind_unreadable_iff]

end

/-! ### A directory in place of the file -/

/-- A session that looks for its file. -/
def lookingFor (artifact : String) : Session where
  id := "1"
  mode := .assembly
  phase := .locating ⟨"main.cpp", ⟨"app", "Debug", "x64"⟩, "", some "int main()"⟩ artifact

/-- A directory for generated files with one file in it. -/
def outputTree : FileTree where
  root := .directory [("out", .directory [("a.txt", .file { content := bytesOf "x

y" })])]

/-- The file is shown in both modes. -/
theorem ends_of_locating_of_outputTree :
    let host := OptionTable.host (OptionTable.document ⟨"app", "Debug", "x64"⟩)
      fun _ new => (.ok (), new)
    let w : World OptionTable := { host := {}, files := outputTree }
    (lookingFor "out/a.txt").phase =
        .locating ⟨"main.cpp", ⟨"app", "Debug", "x64"⟩, "", some "int main()"⟩ "out/a.txt" ∧
      outputTree.Writable "out" ∧
      ∀ mode, ∃ a,
        (poll host { artifactDir := "out" } { lookingFor "out/a.txt" with mode } w).1.outcome? =
          some (.shown a) := by
  intro host w
  have hwritable : outputTree.Writable "out" := by decide +kernel
  have hread : outputTree.read "out/a.txt" = .ok (bytesOf "x

y") := by decide +kernel
  refine ⟨rfl, hwritable, fun mode => ?_⟩
  obtain ⟨hshown, -⟩ := @ends_of_locating OptionTable { artifactDir := "out" } "out/a.txt" w host
    (lookingFor "out/a.txt") _ rfl hwritable
  obtain ⟨a, ha, -⟩ := hshown _ hread mode
  exact ⟨a, ha⟩

/-- A host whose compiler makes a directory where preprocessed source should be. -/
def directoryHost : Host OptionTable where
  reply
    | .compileFile _, s, t =>
      ⟨.ran true, s, (t.put "out/devutils-1.cpp" .empty).toOption.getD t, []⟩
    | c, s, t =>
      (OptionTable.host (OptionTable.document ⟨"app", "Debug", "x64"⟩)
        fun _ new => (.ok (), new)).reply c s t

/-- A directory in place of preprocessed source is no missing file, although copies could be
made. -/
theorem directory_not_missing :
    let poll : Session × World OptionTable :=
      Session.poll directoryHost { artifactDir := "out" } { id := "1", mode := .preprocessed }
        { host := {} }
    poll.2.files.Writable "out" ∧ poll.2.files.isDirectory "out/devutils-1.cpp" = true ∧
      poll.1.outcome? = some (.failed (.ofIo (.os .isDirectory))) ∧
      (SessionError.ofIo (.os .isDirectory)).kind ≠ .artifactMissing := by
  decide +kernel

end Session

end BuildLens
