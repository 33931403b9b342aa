/-
Carrying out commands.

Two commands read a file and report on it; one follows a recording of a build through the
monitor; one runs a session on the terminal.  A command prints until it fails.
-/
import BuildLens.Command.Error
import BuildLens.Command.Line
import BuildLens.Command.Table
import BuildLens.Model.Recording
import BuildLens.Schedule
import BuildLens.Terminal

namespace BuildLens

open BuildLens.Text

/-- What a command has done. -/
structure Performed where
  /-- What it has printed. -/
  printed : String := ""
  /-- What it has printed as notes. -/
  notes : String := ""
  /-- The arguments of every program that it has started. -/
  launches : List (List String) := []
  /-- Why it has failed, if it has. -/
  error : Option CommandError := none

namespace Performed

/-- A command has printed some lines. -/
def ofLines (ls : List String) : Performed where
  printed := String.join (ls.map (· ++ "\n"))

/-- A command has failed before it has done anything. -/
def ofError (e : CommandError) : Performed where
  error := some e

/-- A command has printed some lines, or has failed. -/
def ofReport : Except CommandError (List String) → Performed
  | .ok ls => ofLines ls
  | .error e => ofError e

/-- A command has used a terminal, and has printed some lines after that. -/
def ofTerminal (s : Terminal) (ls : List String) : Performed where
  printed := s.printed ++ (ofLines ls).printed
  notes := s.notes
  launches := s.launches

end Performed

/-- Where commands are carried out. -/
structure Workplace where
  /-- The machine. -/
  machine : Machine
  /-- The files. -/
  files : FileTree
  /-- The time. -/
  now : Instant
  /-- The name of the next session. -/
  session : String

namespace Workplace

/-- The text of a file. -/
def readText (p : Workplace) (path : String) : Except CommandError (List Char) :=
  match p.files.read path with
  | .ok content => .ok (Utf8.decode content)
  | .error e => .error (.io e)

/-! ## Reports -/

/-- Finds remarks in what a build has printed. -/
def diagnostics (p : Workplace) (log : String) (family : RemarkFamily) :
    Except CommandError (List Diagnostic) := do
  pure (Remark.extractUnique family (← p.readText log))

/-- The lines that report on diagnostics. -/
def diagnosticReport (family : RemarkFamily) (ds : List Diagnostic) :
    ReportFormat → List String
  | .table => diagnosticLines family ds
  | .json => [prettyJson (.array (ds.map Diagnostic.toJson))]

/-- Finds a place in the text of a generated file. -/
def locate (p : Workplace) (artifact : String) (mode : Mode) (function line : Option String) :
    Except CommandError Location := do
  let text ← p.readText artifact
  pure (Locate.locate mode (Utf8.encode text) (function.getD "").toList
    (line.map String.toList))

/-- The lines that report on a place. -/
def locationReport (artifact : String) (l : Location) : ReportFormat → List String
  | .table => locationLines artifact l
  | .json => [prettyJson l.toJson]

/-! ## Recordings -/

/-- The events of a recording. -/
def events (p : Workplace) (path : String) : Except CommandError (List BuildEvent) := do
  match Recording.read p.now (← p.readText path) with
  | .ok es => pure es
  | .error line => .error (.noEvent line)

/-- Follows some events of builds that have printed something. -/
def follow (p : Workplace) (es : List BuildEvent) (output : List Char) :
    Monitor × World Terminal :=
  let terminal : Terminal := { buildOutput := String.ofList output, now := p.now }
  Monitor.dispatchAll (Terminal.host p.machine) {} es { host := terminal, files := p.files }

/-- Follows a recording of builds that have printed something. -/
def replay (p : Workplace) (events : String) (output : Option String) : Performed :=
  let read : Except CommandError (List BuildEvent × List Char) := do
    let es ← p.events events
    match output with
    | none => pure (es, [])
    | some path => pure (es, ← p.readText path)
  match read with
  | .error e => .ofError e
  | .ok (es, output) =>
    let (monitor, world) := p.follow es output
    .ofTerminal world.host (buildLines monitor.tracker monitor.tasks.length)

/-! ## Sessions -/

/-- The name of a project unless there is a better one. -/
def unnamedProject : String :=
  "unnamed"

/-- The document of a request. -/
def documentOf (r : ShowRequest) : Document where
  path := r.file
  cursorLine := r.line
  enclosingFunction := r.function
  target := some
    { project := r.project.getD ((Path.stem r.file).getD unnamedProject)
      configuration := r.configuration
      platform := r.platform }

/-- The settings of a session. -/
def settings (p : Workplace) (artifactDir : Option String) : SessionConfig :=
  let config := SessionConfig.ofEnvironment p.machine.environment
  { config with artifactDir := artifactDir.getD config.artifactDir }

/-- The terminal and the settings for a request. -/
def workbench (p : Workplace) (artifactDir : Option String) (r : ShowRequest)
    (compiler : String) : Workbench Terminal where
  host := Terminal.host p.machine
  config := p.settings artifactDir
  world :=
    { files := p.files
      host :=
        { document := some (documentOf r)
          compiler := some compiler
          connected := true
          now := p.now } }

/-- What is printed after a session. -/
def remarkOn (a : Shown) : List String :=
  if a.location.isAnchored then [] else ["  (no anchor found, showing top of file)"]

/-- Compiles a file and shows what the compiler has made of it. -/
def showFile (p : Workplace) (artifactDir : Option String) (r : ShowRequest) : Performed :=
  match p.machine.compiler p.files r.compiler with
  | .error e => .ofError e
  | .ok compiler =>
    let (sessions, b) :=
      (p.workbench artifactDir r compiler).run [{ id := p.session, mode := r.mode }] []
    match sessions.findSome? Session.outcome? with
    | some (.shown a) => .ofTerminal b.world.host (remarkOn a)
    | some (.failed e) => { Performed.ofTerminal b.world.host [] with error := some (.session e) }
    | _ => .ofTerminal b.world.host []

/-! ## Commands -/

/-- Carries out a command line. -/
def run (p : Workplace) (line : CommandLine) : Performed :=
  match line.command with
  | .diagnostics log family format =>
    .ofReport ((p.diagnostics log family).map (diagnosticReport family · format))
  | .locate artifact mode function line format =>
    .ofReport ((p.locate artifact mode function line).map (locationReport artifact · format))
  | .replay events output => p.replay events output
  | .show request => p.showFile line.artifactDir request

end Workplace

end BuildLens
