/-
What can go wrong in a host.
-/
import BuildLens.Files.Error

namespace BuildLens

/-- Why a host did not do what it was asked for. -/
inductive HostError where
  /-- The host cannot do it. -/
  | unsupported (text : String)
  /-- A program could not be started. -/
  | toolUnavailable (text : String)
  /-- Something does not exist. -/
  | notFound (text : String)
  /-- The host failed. -/
  | failed (text : String)
  /-- Reading or writing failed. -/
  | io (e : IoError)
  deriving DecidableEq, Repr

/-- The text of a host error. -/
def HostError.message : HostError → String
  | .unsupported text => "not supported by host: " ++ text
  | .toolUnavailable text => "external tool unavailable: " ++ text
  | .notFound text => "not found: " ++ text
  | .failed text => "host operation failed: " ++ text
  | .io e => "io error: " ++ e.message

end BuildLens
