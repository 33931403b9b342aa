/-
The stages of a session.
-/
namespace BuildLens

/-- A stage of a session. -/
inductive Stage where
  /-- The session finds out what it is about. -/
  | capturing
  /-- It changes the options of the file. -/
  | configuring
  /-- It has the file compiled. -/
  | compiling
  /-- It puts the options back. -/
  | restoring
  /-- It looks for the function and the line in the generated file. -/
  | locating
  /-- It has shown the generated file. -/
  | succeeded
  /-- It has failed. -/
  | failed
  deriving DecidableEq, Repr

namespace Stage

/-- The name of a stage. -/
def name : Stage → String
  | .capturing => "capturing"
  | .configuring => "configuring"
  | .compiling => "compiling"
  | .restoring => "restoring"
  | .locating => "locating"
  | .succeeded => "succeeded"
  | .failed => "failed"

/-- Whether no other stage follows. -/
def isFinal : Stage → Bool
  | .succeeded => true
  | .failed => true
  | _ => false

end Stage

end BuildLens
