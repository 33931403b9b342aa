/-
Why a session fails.

A session error is a kind and the message that the user is shown.
-/
import BuildLens.Host.Error
import BuildLens.Model.Document

namespace BuildLens

/-- The kinds of session errors. -/
inductive SessionErrorKind where
  /-- A header has no implementation file beside it. -/
  | noImplementationFile
  /-- There is no code near the cursor. -/
  | noUsableSourceLine
  /-- The document belongs to no target. -/
  | notInProject
  /-- The file was not compiled. -/
  | compileFailed
  /-- The compiler has not written what it was asked for. -/
  | artifactMissing
  /-- A program could not be started. -/
  | externalToolUnavailable
  /-- Another session works on the target. -/
  | sessionBusy
  /-- Reading or writing failed. -/
  | io
  /-- The host failed in another way. -/
  | host
  deriving DecidableEq, Repr

/-- Why a session failed. -/
structure SessionError where
  /-- The kind of the error. -/
  kind : SessionErrorKind
  /-- What the user is shown. -/
  message : String
  deriving DecidableEq, Repr

namespace SessionError

/-- A session failed because the host did. -/
def ofHost (e : HostError) : SessionError :=
  match e with
  | .toolUnavailable _ => ⟨.externalToolUnavailable, e.message⟩
  | .io _ => ⟨.io, e.message⟩
  | _ => ⟨.host, e.message⟩

/-- A session failed because reading or writing did. -/
def ofIo (e : IoError) : SessionError :=
  ⟨.io, "io error: " ++ e.message⟩

/-- There is no implementation file beside a header. -/
def noImplementationFile : SessionError :=
  ⟨.noImplementationFile, "Please open a cpp file calling this code and re-run."⟩

/-- There is no code near the cursor. -/
def noUsableSourceLine : SessionError :=
  ⟨.noUsableSourceLine,
    "Choose a distinctive line of code inside a function or the function definition itself."⟩

/-- A file belongs to no target. -/
def notInProject (path : String) : SessionError :=
  ⟨.notInProject, path ++ " is not recognized as part of any project"⟩

/-- The compiler rejected a file. -/
def compileFailed (file : String) : SessionError :=
  ⟨.compileFailed, "Compilation of " ++ file ++ " failed"⟩

/-- The build of a target was abandoned. -/
def buildAbandoned (target : Target) : SessionError :=
  ⟨.compileFailed, "The build of " ++ target.display ++ " was abandoned"⟩

/-- The build of a target took too long: longer than a number of whole seconds. -/
def timedOut (seconds : Nat) (target : Target) : SessionError :=
  ⟨.compileFailed, s!"Timed out after {seconds}s waiting for {target.display} to build"⟩

/-- The compiler has written nothing. -/
def artifactMissing (path : String) : SessionError :=
  ⟨.artifactMissing, "Could not find expected output file\n" ++ path⟩

/-- What the compiler has written cannot be read. -/
def artifactUnreadable (path : String) (e : IoError) : SessionError :=
  ⟨.artifactMissing, "Could not read output file " ++ path ++ ": " ++ e.message⟩

/-- Another session works on a target. -/
def busy (target : Target) : SessionError :=
  ⟨.sessionBusy, "A build session for " ++ target.display ++ " is already running"⟩

end SessionError

end BuildLens
