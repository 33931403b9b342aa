/-
The grammar of command lines.

A command line has two levels: the words before the name of a command, and those behind it.
Every level has its own options, which have a value, and its own switches, which have none.
The verbosity and the directory for generated files may be given on both levels.
-/
import BuildLens.Command.Usage
import BuildLens.Text.Numeral

namespace BuildLens

open BuildLens.Text

/-- The values that an option admits. -/
inductive ValueKind where
  /-- Paths: every text that is not empty. -/
  | path
  /-- Every text. -/
  | text
  /-- Numbers. -/
  | number
  /-- One of some texts. -/
  | choice (texts : List String)
  deriving DecidableEq, Repr

/-- The largest number that is admitted. -/
def ValueKind.maxNumber : Nat :=
  maxWord64

/-- What is wrong with a value. -/
def ValueKind.objection? : ValueKind → String → Option UsageError
  | .path, v => if v.isEmpty then some .invalidValue else none
  | .text, _ => none
  | .number, v =>
    if (readSignedUpTo maxNumber v.toList).isSome then none else some .unreadableNumber
  | .choice texts, v => if texts.contains v then none else some .invalidValue

/-- An option. -/
structure CommandOption where
  /-- The long name. -/
  name : String
  /-- The letter that stands for it. -/
  letter : Option Char := none
  /-- The values that it admits. -/
  kind : ValueKind := .text
  /-- The variable of the environment that gives the value otherwise. -/
  variableName : Option String := none
  deriving DecidableEq, Repr

/-- A switch. -/
inductive Switch where
  /-- Print more. -/
  | verbose
  /-- Print help and stop. -/
  | help
  /-- Print the version and stop. -/
  | version
  deriving DecidableEq, Repr

/-- The long name of a switch. -/
def Switch.name : Switch → String
  | .verbose => "verbose"
  | .help => "help"
  | .version => "version"

/-- The letter that stands for a switch. -/
def Switch.letter : Switch → Char
  | .verbose => 'v'
  | .help => 'h'
  | .version => 'V'

/-- What a name stands for. -/
inductive Flag where
  /-- An option. -/
  | option (o : CommandOption)
  /-- A switch. -/
  | switch (s : Switch)

/-- A level of a command line. -/
structure Level where
  /-- Its options. -/
  options : List CommandOption
  /-- Its switches. -/
  switches : List Switch
  /-- The file that the command works on, if this is the level of a command. -/
  operand : Option CommandOption := none
  /-- The words that end the level. -/
  commands : List String := []

namespace Level

/-- What a long name stands for. -/
def named? (l : Level) (name : String) : Option Flag :=
  ((l.options.find? fun o => o.name == name).map .option).or
    ((l.switches.find? fun s => s.name == name).map .switch)

/-- What a letter stands for. -/
def lettered? (l : Level) (letter : Char) : Option Flag :=
  ((l.options.find? fun o => o.letter == some letter).map .option).or
    ((l.switches.find? fun s => s.letter == letter).map .switch)

/-- What is wrong with a word that is not expected.  Where a command is expected, the name
of one is not: it stands behind the end of the options. -/
def refusal (l : Level) (word : String) : UsageError :=
  if l.commands.isEmpty || l.commands.contains word then .unknownArgument
  else .unknownCommand

end Level

/-! ## The levels -/

/-- The name of a command. -/
inductive CommandName where
  /-- Find remarks in what a build has printed. -/
  | diagnostics
  /-- Find a place in a generated file. -/
  | locate
  /-- Follow a recording of a build. -/
  | replay
  /-- Compile a file and show what the compiler has made of it. -/
  | show
  deriving DecidableEq, Repr

namespace CommandName

/-- The commands. -/
def all : List CommandName :=
  [.diagnostics, .locate, .replay, .show]

/-- The text of a name. -/
def text : CommandName → String
  | .diagnostics => "diagnostics"
  | .locate => "locate"
  | .replay => "replay"
  | .show => "show"

/-- The name of a text. -/
def ofText (s : String) : Option CommandName :=
  all.find? fun c => c.text == s

end CommandName

/-- The word that asks for help in place of a command. -/
def helpWord : String :=
  "help"

/-- The words that end the first level. -/
def commandWords : List String :=
  CommandName.all.map CommandName.text ++ [helpWord]

/-- The option for the directory that receives generated files. -/
def artifactDirOption : CommandOption :=
  { name := "artifact-dir", kind := .path }

/-- The option for the kind of generated file. -/
def modeOption : CommandOption :=
  { name := "mode", letter := some 'm', kind := .choice ["asm", "preprocessed"] }

/-- The option for the form of a report. -/
def formatOption : CommandOption :=
  { name := "format", letter := some 'f', kind := .choice ["table", "json"] }

/-- The option for the signature of a function. -/
def functionOption : CommandOption :=
  { name := "function" }

/-- The variable that names a compiler. -/
def compilerVariable : String :=
  "DEVUTILS_COMPILER"

/-- The options of a command. -/
def CommandName.options : CommandName → List CommandOption
  | .diagnostics =>
    [{ name := "remark", letter := some 'r', kind := .choice ["vectorizer", "parallelizer"] },
      formatOption]
  | .locate => [modeOption, functionOption, { name := "line" }, formatOption]
  | .replay => [{ name := "output", letter := some 'o', kind := .path }]
  | .show =>
    [{ name := "line", letter := some 'l', kind := .number }, modeOption, functionOption,
      { name := "project", letter := some 'p' }, { name := "configuration" },
      { name := "platform" },
      { name := "compiler", kind := .path, variableName := some compilerVariable }]

/-- The name of the file that a command works on. -/
def operandName : String :=
  "file"

/-- The level before the name of a command. -/
def Level.first : Level where
  options := [artifactDirOption]
  switches := [.verbose, .help, .version]
  commands := commandWords

/-- The level behind the name of a command. -/
def Level.ofCommand (c : CommandName) : Level where
  options := artifactDirOption :: c.options
  switches := [.verbose, .help]
  operand := some { name := operandName, kind := .path }

end BuildLens
