/-
What a compiler is asked for.

Among the arguments of a compiler `-o` stands in front of its operand, the path of the file to be
written, and all others are flags, which tell what is written.  Options that were configured for a
mode ask for the kind of file of that mode, at the path that they were configured with, unless they
are configured for a listing and already ask for preprocessed source (`selects_configured_iff`):
these go on asking for preprocessed source, in place of the object file.
-/
import Mathlib.Tactic.Common
import BuildLens.Compiler.Arguments
import BuildLens.Compiler.Machine
import BuildLens.Proofs.Files.Tree
import BuildLens.Session.Artifact

namespace BuildLens

/-! ## Arguments -/

/-- The arguments but for `-o` and its operand. -/
def flagsOf : List String → List String
  | [] => []
  | [argument] => [argument]
  | argument :: next :: rest =>
    if argument = "-o" then flagsOf rest else argument :: flagsOf (next :: rest)

/-- The operand of the first `-o`. -/
def operand? : List String → Option String
  | [] => none
  | argument :: rest => if argument = "-o" then rest.head? else operand? rest

/-- The flag that asks for the kind of file of a mode. -/
def purposeFlag : Mode → String
  | .assembly => "-S"
  | .preprocessed => "-E"

lemma purposeFlag_injective : Function.Injective purposeFlag := by
  intro mode other h
  cases mode <;> cases other <;> first | rfl | exact absurd h (by decide)

/-- The arguments ask for the kind of file of a mode, and for no other kind, at a path. -/
structure Selects (mode : Mode) (path : String) (arguments : List String) : Prop where
  purpose : purposeFlag mode ∈ flagsOf arguments
  only : ∀ other, purposeFlag other ∈ flagsOf arguments → other = mode
  operand : operand? arguments = some path

section

variable {path : String} {arguments : List String}

lemma flagsOf_cons {argument : String} (h : argument ≠ "-o") (rest : List String) :
    flagsOf (argument :: rest) = argument :: flagsOf rest := by
  cases rest with
  | nil => rfl
  | cons next rest => rw [flagsOf, if_neg h]

lemma flagsOf_operand (path : String) (rest : List String) :
    flagsOf ("-o" :: path :: rest) = flagsOf rest := by
  rw [flagsOf, if_pos rfl]

lemma operand?_cons {argument : String} (h : argument ≠ "-o") (rest : List String) :
    operand? (argument :: rest) = operand? rest := by
  rw [operand?, if_neg h]

/-- What follows does not matter once there is an operand. -/
lemma operand?_append (h : operand? arguments = some path) (more : List String) :
    operand? (arguments ++ more) = some path := by
  induction arguments with
  | nil => exact absurd h (by simp [operand?])
  | cons argument rest ih =>
    rw [List.cons_append, operand?]
    rw [operand?] at h
    split_ifs at h ⊢
    · rw [List.head?_append, h, Option.some_or]
    · exact ih h

end

/-! ## Options -/

namespace Options

/-- The arguments that tell how the file is compiled, whatever is written. -/
def manner (o : Options) : List String :=
  (if o.wholeProgramOptimization then ["-flto"] else []) ++
    if o.warnAsError then ["-Werror"] else []

lemma arguments_eq (o : Options) : o.arguments = o.purposeArguments ++ o.manner :=
  List.append_assoc ..

lemma flagsOf_manner (o : Options) : flagsOf o.manner = o.manner := by
  rw [manner]
  cases o.wholeProgramOptimization <;> cases o.warnAsError <;> decide

lemma operand?_manner (o : Options) : operand? o.manner = none := by
  rw [manner]
  cases o.wholeProgramOptimization <;> cases o.warnAsError <;> decide

lemma purposeFlag_not_mem_manner (o : Options) (mode : Mode) : purposeFlag mode ∉ o.manner := by
  rw [manner]
  cases o.wholeProgramOptimization <;> cases o.warnAsError <;> cases mode <;> decide

lemma flagsOf_outputArguments (path : Option String) (rest : List String) :
    flagsOf (outputArguments path ++ rest) = flagsOf rest := by
  cases path with
  | none => rfl
  | some path => exact flagsOf_operand path rest

lemma operand?_outputArguments (path : Option String) {rest : List String}
    (h : operand? rest = none) : operand? (outputArguments path ++ rest) = path := by
  cases path with
  | none => exact h
  | some path => rfl

/-- Options that ask for preprocessed source ask for it in place of the object file. -/
lemma preprocesses {o : Options} (h : o.generatePreprocessedFile ≠ .no) :
    "-E" ∈ flagsOf o.arguments ∧
      (∀ mode, purposeFlag mode ∈ flagsOf o.arguments → mode = .preprocessed) ∧
      operand? o.arguments = o.objectFile := by
  have hnone := operand?_manner o
  have hmode : ∀ mode, purposeFlag mode = "-E" → mode = .preprocessed := fun _ h =>
    purposeFlag_injective h
  have hother : ∀ mode, purposeFlag mode ≠ "-P" := fun mode => by cases mode <;> decide
  have hmanner := o.purposeFlag_not_mem_manner
  rw [arguments_eq, purposeArguments]
  cases hfile : o.generatePreprocessedFile with
  | no => exact absurd hfile h
  | yes =>
    dsimp only
    rw [List.cons_append, flagsOf_cons (by decide), flagsOf_outputArguments, flagsOf_manner,
      operand?_cons (by decide), operand?_outputArguments _ hnone]
    refine ⟨List.mem_cons_self, fun mode hmem => ?_, rfl⟩
    exact hmode mode ((List.mem_cons.mp hmem).resolve_right (hmanner mode))
  | withoutLineNumbers =>
    dsimp only
    rw [List.cons_append, List.cons_append, flagsOf_cons (by decide), flagsOf_cons (by decide),
      flagsOf_outputArguments, flagsOf_manner, operand?_cons (by decide),
      operand?_cons (by decide), operand?_outputArguments _ hnone]
    refine ⟨List.mem_cons_self, fun mode hmem => ?_, rfl⟩
    rcases List.mem_cons.mp hmem with hmem | hmem
    · exact hmode mode hmem
    · exact absurd hmem (by simp [hother, hmanner])

/-- Options that do not ask for preprocessed source ask for a listing, if for anything at all. -/
lemma lists {o : Options} (h : o.generatePreprocessedFile = .no)
    (hlisting : o.assemblerOutput ≠ .noListing) :
    "-S" ∈ flagsOf o.arguments ∧
      (∀ mode, purposeFlag mode ∈ flagsOf o.arguments → mode = .assembly) ∧
      operand? o.arguments = o.assemblerListingLocation := by
  have hnone := operand?_manner o
  have hmode : ∀ mode, purposeFlag mode = "-S" → mode = .assembly := fun _ h =>
    purposeFlag_injective h
  have hother : ∀ mode, purposeFlag mode ≠ "-fverbose-asm" := fun mode => by
    cases mode <;> decide
  have hmanner := o.purposeFlag_not_mem_manner
  rw [arguments_eq, purposeArguments, h]
  dsimp only
  rw [if_neg hlisting, List.cons_append, List.cons_append, flagsOf_cons (by decide),
    flagsOf_cons (by decide), flagsOf_outputArguments, flagsOf_manner, operand?_cons (by decide),
    operand?_cons (by decide), operand?_outputArguments _ hnone]
  refine ⟨List.mem_cons_self, fun mode hmem => ?_, rfl⟩
  rcases List.mem_cons.mp hmem with hmem | hmem
  · exact hmode mode hmem
  · exact absurd hmem (by simp [hother, hmanner])

/-- Configured options ask for the file of their mode at the path that they were configured with,
unless a listing is wanted and they go on asking for preprocessed source. -/
theorem selects_configured_iff (o : Options) (mode : Mode) (path : String) :
    Selects mode path (o.configured mode path).arguments ↔
      mode = .preprocessed ∨ o.generatePreprocessedFile = .no := by
  cases mode with
  | preprocessed =>
    have hfile : (o.configured .preprocessed path).generatePreprocessedFile ≠ .no := by
      simp [configured]
    obtain ⟨hpurpose, honly, hoperand⟩ := preprocesses hfile
    exact ⟨fun _ => .inl rfl, fun _ => ⟨hpurpose, honly, hoperand⟩⟩
  | assembly =>
    have hsame : (o.configured .assembly path).generatePreprocessedFile =
        o.generatePreprocessedFile := rfl
    constructor
    · intro hselects
      by_contra hfile
      rw [not_or] at hfile
      obtain ⟨-, honly, -⟩ := preprocesses (o := o.configured .assembly path) hfile.2
      exact absurd (honly _ hselects.purpose) (by decide)
    · intro hfile
      have hno : o.generatePreprocessedFile = .no := hfile.resolve_left (by decide)
      obtain ⟨hpurpose, honly, hoperand⟩ :=
        lists (o := o.configured .assembly path) hno (by simp [configured])
      exact ⟨hpurpose, honly, hoperand⟩

end Options

/-! ## Programs -/

namespace Machine

variable {m : Machine} {program : String} {arguments : List String} {t : FileTree} {f : Finished}

lemma launch_of_startFile {path : String} (h : m.startFile path arguments t = .ok f) :
    m.launch path arguments t = .ok f := by
  rw [startFile, bind_eq_ok_iff] at h
  obtain ⟨entry, -, h⟩ := h
  cases entry with
  | directory es => exact absurd h (by simp)
  | file file =>
    dsimp only at h
    split_ifs at h
    exact h

lemma launch_of_startFirst {refusal : IoError} {paths : List String}
    (h : m.startFirst arguments t refusal paths = .ok f) :
    ∃ path, m.launch path arguments t = .ok f := by
  induction paths generalizing refusal with
  | nil => exact absurd h (by simp [startFirst])
  | cons path paths ih =>
    rw [startFirst] at h
    split at h
    next g hfile =>
      obtain rfl := Except.ok.inj h
      exact ⟨path, launch_of_startFile hfile⟩
    next =>
      split at h
      · exact ih h
      · exact absurd h (by simp)

/-- What a program that was started has done is what a program of the machine does. -/
lemma launch_of_start (h : m.start program arguments t = .ok f) :
    ∃ path, m.launch path arguments t = .ok f := by
  rw [start] at h
  split_ifs at h
  · exact ⟨program, launch_of_startFile h⟩
  · exact launch_of_startFirst h

/-- A path that leads to a program starts it. -/
lemma start_of_isProgram (m : Machine) {path : String} (hprogram : isProgram t path = true)
    (hplace : '/' ∈ path.toList) (hzero : ∀ s ∈ path :: arguments, '\x00' ∉ s.toList) :
    m.start path arguments t = m.launch path arguments t := by
  have hany : (path :: arguments).any (·.contains '\x00') = false := by simpa using hzero
  have hempty : path.isEmpty = false := by
    by_contra h
    rw [Bool.not_eq_false, String.isEmpty_iff] at h
    rw [h] at hplace
    exact absurd hplace (by decide)
  have hcontains : path.contains '/' = true := by simpa using hplace
  have hstart : m.start path arguments t = m.startFile path arguments t := by
    rw [start, hany, hempty, hcontains]
    rfl
  rw [isProgram] at hprogram
  split at hprogram
  next f hlookup =>
    rw [hstart, startFile, hlookup]
    exact if_pos hprogram
  next => exact absurd hprogram Bool.false_ne_true

/-- Compilers that succeed leave a readable file at the operand of `-o`. -/
def LeavesOperand (m : Machine) : Prop :=
  ∀ path arguments t f, m.launch path arguments t = .ok f → f.success = true →
    ∀ file ∈ operand? arguments, ∃ content, f.files.read file = .ok content

end Machine

end BuildLens
