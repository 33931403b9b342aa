/-
Why a command fails.
-/
import BuildLens.Compiler.Machine
import BuildLens.Session.Error

namespace BuildLens

/-- Why a command fails. -/
inductive CommandError where
  /-- There is no compiler: not the given one, or none at all. -/
  | compilerNotFound (given : Option String)
  /-- A line of a recording is no event. -/
  | noEvent (line : Nat)
  /-- A session failed. -/
  | session (e : SessionError)
  /-- The host failed. -/
  | host (e : HostError)
  /-- Reading a file failed. -/
  | io (e : IoError)
  deriving DecidableEq, Repr

namespace CommandError

/-- What was looked for in place of a compiler. -/
def missingCompiler : Option String → String
  | some name => name ++ ": cannot find binary path"
  | none => ", ".intercalate Machine.compilers

/-- The text of an error. -/
def message : CommandError → String
  | .compilerNotFound given => "compiler not found: " ++ missingCompiler given
  | .noEvent line => s!"invalid input: event on line {line}"
  | .session e => e.message
  | .host e => e.message
  | .io e => "IO error: " ++ e.message

end CommandError

namespace Machine

/-- The path of a compiler: of the given one, or else of the first that is found. -/
def compiler (m : Machine) (t : FileTree) (given : Option String) :
    Except CommandError String :=
  match m.findCompiler? t given with
  | some path => .ok path
  | none => .error (.compilerNotFound given)

end Machine

end BuildLens
