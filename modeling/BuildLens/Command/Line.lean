/-
Command lines.

A command line says what is to be done, how much is to be printed meanwhile, and where
generated files go.
-/
import BuildLens.Command.Reading
import BuildLens.Model.Output
import BuildLens.Remark.Family
import BuildLens.Session.Config

namespace BuildLens

open BuildLens.Text

/-- The form of a report. -/
inductive ReportFormat where
  /-- A text for readers. -/
  | table
  /-- JSON. -/
  | json
  deriving DecidableEq, Repr

/-- The name of a form. -/
def ReportFormat.name : ReportFormat → String
  | .table => "table"
  | .json => "json"

/-- The file to be compiled, and how. -/
structure ShowRequest where
  /-- The file. -/
  file : String
  /-- The line of the cursor. -/
  line : Nat := 1
  /-- The kind of file that is to be shown. -/
  mode : Mode := .assembly
  /-- The signature of the function around the cursor. -/
  function : Option String := none
  /-- The name of the project, unless it is that of the file. -/
  project : Option String := none
  /-- The configuration. -/
  configuration : String := "Debug"
  /-- The platform. -/
  platform : String := "x64"
  /-- The compiler, unless it is looked for. -/
  compiler : Option String := none
  deriving DecidableEq, Repr

/-- What is to be done. -/
inductive Command where
  /-- Find remarks in what a build has printed. -/
  | diagnostics (log : String) (family : RemarkFamily) (format : ReportFormat)
  /-- Find a function and a line in a generated file. -/
  | locate (artifact : String) (mode : Mode) (function line : Option String)
    (format : ReportFormat)
  /-- Follow a recording of a build that has printed something. -/
  | replay (events : String) (output : Option String)
  /-- Compile a file and show what the compiler has made of it. -/
  | show (request : ShowRequest)
  deriving DecidableEq, Repr

/-- The files that a command reads. -/
def Command.inputs : Command → List String
  | .diagnostics log _ _ => [log]
  | .locate artifact _ _ _ _ => [artifact]
  | .replay events output => events :: output.toList
  | .show request => [request.file]

/-- How much is logged. -/
inductive LogLevel where
  /-- Warnings. -/
  | warn
  /-- What is done. -/
  | info
  /-- How it is done. -/
  | debug
  /-- Everything. -/
  | trace
  deriving DecidableEq, Repr

/-- The name of a level. -/
def LogLevel.name : LogLevel → String
  | .warn => "WARN"
  | .info => "INFO"
  | .debug => "DEBUG"
  | .trace => "TRACE"

/-- A command line. -/
structure CommandLine where
  /-- How often more output is asked for. -/
  verbosity : Nat
  /-- The directory that receives generated files. -/
  artifactDir : Option String
  /-- What is to be done. -/
  command : Command
  deriving DecidableEq, Repr

/-- How much is logged. -/
def CommandLine.logLevel (c : CommandLine) : LogLevel :=
  match c.verbosity with
  | 0 => .warn
  | 1 => .info
  | 2 => .debug
  | _ => .trace

/-! ## Values -/

namespace Reading

/-- The form of the report. -/
def format (r : Reading) : ReportFormat :=
  if r.value? "format" = some ReportFormat.json.name then .json else .table

/-- The kind of generated file. -/
def mode (r : Reading) : Mode :=
  if r.value? "mode" = some Mode.preprocessed.name then .preprocessed else .assembly

/-- The family of remarks. -/
def family (r : Reading) : RemarkFamily :=
  if r.value? "remark" = some "parallelizer" then .loopNotParallelized else .loopNotVectorized

/-- The number of a line. -/
def line (r : Reading) : Nat :=
  ((r.value? "line").bind fun v => readSignedUpTo ValueKind.maxNumber v.toList).getD 1

/-- What is to be done to a file. -/
def command (r : Reading) (file : String) : CommandName → Command
  | .diagnostics => .diagnostics file r.family r.format
  | .locate => .locate file r.mode (r.value? "function") (r.value? "line") r.format
  | .replay => .replay file (r.value? "output")
  | .show => .show
    { file
      line := r.line
      mode := r.mode
      function := r.value? "function"
      project := r.value? "project"
      configuration := (r.value? "configuration").getD "Debug"
      platform := (r.value? "platform").getD "x64"
      compiler := r.value? "compiler" }

end Reading

namespace CommandLine

/-- Reads the level behind the name of a command, up to the end of the line. -/
def readCommand (env : Environment) (name : CommandName) (words : List String) :
    Except UsageError (Reading × Command) := do
  let level := Level.ofCommand name
  let (r, _) ← Reading.words level false {} words
  let r ← (← r.settle).fillIn env level.options
  match r.value? operandName with
  | none => .error .missingOperand
  | some file => pure (r, r.command file name)

/-- What is wrong with a line that asks for help: nothing, unless it asks for help on
something else than a command. -/
def helpOn : List String → UsageError
  | [] => .helpRequested
  | [word] => if commandWords.contains word then .helpRequested else .unknownCommand
  | _ => .unknownCommand

/-- What is wrong with a line without a command. -/
def withoutCommand (r : Reading) : UsageError :=
  if r.values.isEmpty && r.verbosity == 0 then .nothingGiven else .missingCommand

/-- The command line of what was read on the two levels.  What is given on the level of the
command wins. -/
def ofReadings (first second : Reading) (command : Command) : CommandLine where
  verbosity := if second.verbosity = 0 then first.verbosity else second.verbosity
  artifactDir := (second.value? artifactDirOption.name).or (first.value? artifactDirOption.name)
  command

/-- Reads a command line, without the name of the program. -/
def read (env : Environment) (words : List String) : Except UsageError CommandLine := do
  let (first, rest) ← Reading.words .first false {} words
  match rest with
  | none => .error (withoutCommand (← first.settle))
  | some (word, words) =>
    match CommandName.ofText word with
    | none => .error (helpOn words)
    | some name =>
      let (second, command) ← readCommand env name words
      pure (ofReadings (← first.settle) second command)

end CommandLine

end BuildLens
