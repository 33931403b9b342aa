/-
The program.

What the library needs of the outside is gathered here: the arguments, the variables and the
files that they name, and the time.  No compiler is started from here, so the command that
compiles a file finds none.
-/
import BuildLens.Command.Run
import BuildLens.Session.Id
import Std.Time.DateTime.Timestamp

open BuildLens

/-- The variables that count. -/
def knownVariables : List String :=
  [SessionConfig.artifactDirVariable, SessionConfig.timeoutVariable, compilerVariable,
    Machine.searchVariable, Machine.homeVariable, SessionConfig.temporaryVariable]

/-- The environment of the program. -/
def readEnvironment : IO Environment := do
  let found ← knownVariables.filterMapM fun name => do
    pure ((← IO.getEnv name).map fun value => (name, value))
  pure fun name => found.lookup name

/-- What stands at a path, if it can be told. -/
def readEntry (path : String) : IO (Option Entry) := do
  try
    let content ← IO.FS.readBinFile path
    pure (some (.file { content := content.toList }))
  catch
    | .inappropriateType .. => pure (some .empty)
    | .permissionDenied .. => pure (some (.file { content := [], readable := false }))
    | _ => pure none

/-- The tree with an entry at a path, in directories that are made. -/
def place (t : FileTree) (path : String) (e : Entry) : FileTree :=
  let t := (t.createDirectories (Path.parent path)).2
  (t.put path e).toOption.getD t

/-- The files that a command reads. -/
def readInputs (c : Command) : IO FileTree := do
  c.inputs.foldlM (fun t path => do
    match ← readEntry path with
    | none => pure t
    | some e => pure (place t path e)) {}

/-- The time. -/
def readClock : IO Instant := do
  let nanos := (← Std.Time.Timestamp.now).toNanosecondsSinceUnixEpoch.val.toNat
  pure (Instant.ofClock (nanos / nanosPerSecond) nanos)

/-- Carries out a command line and prints what comes of it. -/
def perform (env : Environment) (line : CommandLine) : IO UInt32 := do
  let now ← readClock
  let workplace : Workplace :=
    { machine := ⟨env, fun _ _ _ => .error (.os .notPermitted)⟩
      files := ← readInputs line.command
      now
      session := SessionId.ofNumber now.nano }
  let p := workplace.run line
  IO.eprint p.notes
  IO.print p.printed
  match p.error with
  | none => pure 0
  | some e =>
    IO.eprintln ("Error: " ++ e.message)
    pure 1

/-- The program: its exit code tells whether the command line was carried out. -/
def main (words : List String) : IO UInt32 := do
  let env ← readEnvironment
  match CommandLine.read env words with
  | .ok line => perform env line
  | .error e =>
    if e = .helpRequested ∨ e = .versionRequested then
      IO.println e.message
      pure 0
    else
      IO.eprintln e.message
      pure 2
