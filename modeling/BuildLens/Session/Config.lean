/-
The settings of sessions.

Two of them can be set by the environment: the directory that receives generated files, and
how long a session waits for the build of a project.
-/
import BuildLens.Environment
import BuildLens.Files.Path
import BuildLens.Text.Blank
import BuildLens.Text.Numeral

namespace BuildLens

open BuildLens.Text

/-- The settings of sessions. -/
structure SessionConfig where
  /-- The directory that receives generated files. -/
  artifactDir : String
  /-- How long a session waits for the build of a project, in milliseconds. -/
  timeout : Nat := 300000
  /-- The extensions of headers, without a dot. -/
  headerExtensions : List String := ["h", "hpp"]
  /-- Whether a file without an extension is a header. -/
  extensionlessIsHeader : Bool := true
  /-- The extensions of the files that implement a header, in the order in which they are
  tried. -/
  implementationExtensions : List String := ["cpp", "cc"]
  /-- Where code is looked for, as distances from the line of the cursor. -/
  probeOffsets : List Int := [0, 1, -1, 2]
  deriving DecidableEq, Repr

/-- Whether two texts differ at most in the case of the letters `A` to `Z`. -/
def sameIgnoringCase (s t : String) : Bool :=
  s.toList.map Char.toLower == t.toList.map Char.toLower

namespace SessionConfig

/-- The variable that names the directory for generated files. -/
def artifactDirVariable : String :=
  "DEVUTILS_ARTIFACT_DIR"

/-- The variable that tells how many seconds a session waits. -/
def timeoutVariable : String :=
  "DEVUTILS_COMPILE_TIMEOUT_SECS"

/-- The variable that names the directory for temporary files. -/
def temporaryVariable : String :=
  "TMPDIR"

/-- The directory for temporary files. -/
def temporaryDir (env : Environment) : String :=
  (env temporaryVariable).getD "/tmp"

/-- A number of seconds, with white space around it. -/
def readSeconds (s : String) : Option Nat :=
  readSignedUpTo maxWord64 (trim s.toList)

/-- The settings of an environment.  A number of seconds that cannot be read is ignored. -/
def ofEnvironment (env : Environment) : SessionConfig :=
  let config : SessionConfig :=
    { artifactDir := (env artifactDirVariable).getD (temporaryDir env) }
  match (env timeoutVariable).bind readSeconds with
  | none => config
  | some seconds => { config with timeout := seconds * 1000 }

/-- How long a session waits, in whole seconds. -/
def timeoutSeconds (c : SessionConfig) : Nat :=
  c.timeout / 1000

/-- Whether a path is that of a header. -/
def isHeader (c : SessionConfig) (path : String) : Bool :=
  match Path.extension path with
  | some extension => c.headerExtensions.any (sameIgnoringCase · extension)
  | none => c.extensionlessIsHeader

end SessionConfig

end BuildLens
