/-
The machine that compilers run on.

A program is named by a path, or by a bare name that is looked for in the directories of the
search path.  Finding a program and starting it are two things: a program that is found may
still refuse to start, and only who finds a program takes `~` for the home directory.
-/
import BuildLens.Environment
import BuildLens.Files.Tree

namespace BuildLens

open BuildLens.Text

/-- What a program has done. -/
structure Finished where
  /-- What it has printed. -/
  output : Bytes
  /-- What it has printed as errors. -/
  errors : Bytes
  /-- Whether it says that it has succeeded. -/
  success : Bool
  /-- The files after it. -/
  files : FileTree

/-- What the programs of a machine do: a path, the arguments and the files give the end of
the program, or the reason why it could not be started. -/
abbrev Launcher := String → List String → FileTree → Except IoError Finished

/-- The machine that compilers run on. -/
structure Machine where
  /-- Its environment. -/
  environment : Environment
  /-- What its programs do. -/
  launch : Launcher

namespace Machine

/-- The variable that holds the search path. -/
def searchVariable : String :=
  "PATH"

/-- The directories of the search path. -/
def searchPath (m : Machine) : List String :=
  match m.environment searchVariable with
  | none => []
  | some path => (path.toList.splitOn ':').map String.ofList

/-- The files that a bare name may stand for, in the order in which they are tried. -/
def candidates (m : Machine) (name : String) : List String :=
  m.searchPath.map fun directory => Path.join directory name

/-! ## Starting a program -/

/-- Starts a program that is named by a path. -/
def startFile (m : Machine) (path : String) (arguments : List String) (t : FileTree) :
    Except IoError Finished := do
  match ← t.lookup path with
  | .directory _ => .error (.os .permissionDenied)
  | .file f =>
    if f.executable then m.launch path arguments t else .error (.os .permissionDenied)

/-- The errors after which the search for a program goes on. -/
def passedOver : List IoError :=
  [.os .notFound, .os .notDirectory, .os .permissionDenied]

/-- Starts the first program that can be started.  If there is none, a refusal counts for
more than the absence of a file. -/
def startFirst (m : Machine) (arguments : List String) (t : FileTree) (refusal : IoError) :
    List String → Except IoError Finished
  | [] => .error refusal
  | path :: paths =>
    match m.startFile path arguments t with
    | .ok f => .ok f
    | .error e =>
      if passedOver.contains e then
        startFirst m arguments t (if refusal = .os .permissionDenied then refusal else e) paths
      else .error e

/-- Starts a program. -/
def start (m : Machine) (program : String) (arguments : List String) (t : FileTree) :
    Except IoError Finished :=
  if (program :: arguments).any (·.contains '\x00') then .error .zeroInArgument
  else if program.isEmpty then .error (.os .notFound)
  else if program.contains '/' then m.startFile program arguments t
  else if Trail.maxNameSize < program.utf8ByteSize then .error (.os .nameTooLong)
  else m.startFirst arguments t (.os .notFound) (m.candidates program)

/-! ## Finding a program -/

/-- The variable that names the home directory. -/
def homeVariable : String :=
  "HOME"

/-- The home directory; where no variable names it, the one of the superuser. -/
def homeDirectory (m : Machine) : String :=
  (m.environment homeVariable).getD "/root"

/-- A directory of the search path, with the home directory in place of a `~` at its
start. -/
def expandHome (m : Machine) (directory : String) : String :=
  match Path.components directory with
  | "~" :: rest =>
    if m.homeDirectory.isEmpty then directory else rest.foldl Path.join m.homeDirectory
  | _ => directory

/-- The files that a bare name may be found at, in the order in which they are tried. -/
def places (m : Machine) (name : String) : List String :=
  m.searchPath.map fun directory => Path.join (m.expandHome directory) name

/-- Whether a path leads to a file that may be started. -/
def isProgram (t : FileTree) (path : String) : Bool :=
  match t.lookup path with
  | .ok (.file f) => f.executable
  | _ => false

/-- Whether a path names a place, and not only a file: it starts at the root or in the
current directory, or it has several parts. -/
def namesPlace (path : String) : Bool :=
  (Path.components path).length > 1

/-- A path from the root on. -/
def fromRoot (t : FileTree) (path : String) : String :=
  if Path.isAbsolute path.toList then path
  else ((Path.components path).filter (· != ".")).foldl Path.join t.currentPath

/-- The path of a program. -/
def find? (m : Machine) (t : FileTree) (name : String) : Option String :=
  (if namesPlace name then [fromRoot t name] else m.places name).find? (isProgram t)

/-- The names of compilers, in the order in which they are looked for. -/
def compilers : List String :=
  ["c++", "g++", "clang++", "cc"]

/-- The path of a compiler: of the given one, or else of the first that is found. -/
def findCompiler? (m : Machine) (t : FileTree) : Option String → Option String
  | some name => m.find? t name
  | none => compilers.findSome? (m.find? t)

end Machine

end BuildLens
