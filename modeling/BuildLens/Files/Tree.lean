/-
A file tree.

The tree holds directories and files below a root, and one directory is the current one:
paths that do not start at the root start there.  A path is followed part by part along a
`Trail`, and every part but the last must lead to a directory.  What can go wrong on the way is an
`OsError`; a path that contains the character with the code 0 cannot be followed at all.
-/
import BuildLens.Files.Error
import BuildLens.Files.Path
import BuildLens.Text.Numeral
import BuildLens.Text.Utf8

namespace BuildLens

open BuildLens.Text

/-- A file. -/
structure File where
  /-- What the file contains. -/
  content : Bytes
  /-- Whether the file may be read. -/
  readable : Bool := true
  /-- Whether the file may be started as a program. -/
  executable : Bool := false
  deriving DecidableEq, Repr

/-- What has a name in a directory. -/
inductive Entry where
  /-- A directory, with the names in it. -/
  | directory (entries : List (String × Entry))
  /-- A file. -/
  | file (f : File)

namespace Entry

/-- A directory without entries. -/
def empty : Entry :=
  .directory []

/-- The entries of a directory. -/
def entries : Entry → List (String × Entry)
  | .directory es => es
  | .file _ => []

/-- The directory with an entry of a name, in place of an old one of that name. -/
def put (name : String) (e dir : Entry) : Entry :=
  .directory ((name, e) :: dir.entries.filter (·.1 != name))

end Entry

/-! ## Trails -/

/-- The way from the root to a name: what was passed, and what has the name.  Everything that was
passed is a directory, but at the end of the way there may be nothing. -/
inductive Trail where
  /-- The way to the root. -/
  | root (e : Entry)
  /-- A way and one more name. -/
  | step (above : Trail) (name : String) (here : Option Entry)

namespace Trail

/-- What stands at the end of a way. -/
def here : Trail → Option Entry
  | .root e => some e
  | .step _ _ here => here

/-- The way to the directory above; above the root is the root. -/
def parent : Trail → Trail
  | .root e => .root e
  | .step above _ _ => above

/-- The root after something has been put at the end of a way. -/
def put : Trail → Entry → Entry
  | .root _, e => e
  | .step above name _, e => above.put (Entry.put name e (above.here.getD .empty))

/-- The largest number of bytes of a name. -/
def maxNameSize : Nat :=
  255

/-- The way goes on along the parts of a path. -/
def follow (trail : Trail) : List String → Except OsError Trail
  | [] => .ok trail
  | part :: parts =>
    match trail.here with
    | none => .error .notFound
    | some (.file _) => .error .notDirectory
    | some (.directory es) =>
      if part = "." then follow trail parts
      else if part = ".." then follow trail.parent parts
      else if maxNameSize < part.utf8ByteSize then .error .nameTooLong
      else follow (.step trail part (es.lookup part)) parts

end Trail

/-- A file tree. -/
structure FileTree where
  /-- The names of the directories from the root to the current directory. -/
  current : List String := []
  /-- The root. -/
  root : Entry := .empty

namespace FileTree

/-- The largest number of bytes of a path. -/
def maxPathSize : Nat :=
  4095

/-- The parts of a path; a slash at the end counts as the part `.`. -/
def partsOf (path : String) : List String :=
  if path.toList.getLast? = some '/' then Path.parts path ++ ["."] else Path.parts path

/-- The names from the root to where a path starts. -/
def startOf (t : FileTree) (path : String) : List String :=
  if Path.isAbsolute path.toList then [] else t.current

/-- What makes it impossible to follow a path, wherever it leads. -/
def refusal? (path : String) : Option IoError :=
  if path.toList.contains '\x00' then some .zeroInPath
  else if path.isEmpty then some (.os .notFound)
  else if maxPathSize < path.utf8ByteSize then some (.os .nameTooLong)
  else none

/-- Where the parts of a path lead. -/
def resolveParts (t : FileTree) (path : String) (parts : List String) : Except IoError Trail :=
  match refusal? path with
  | some e => .error e
  | none => ((Trail.root t.root).follow (t.startOf path ++ parts)).mapError .os

/-- Where a path leads. -/
def resolve (t : FileTree) (path : String) : Except IoError Trail :=
  t.resolveParts path (partsOf path)

/-- What a path leads to. -/
def lookup (t : FileTree) (path : String) : Except IoError Entry := do
  match (← t.resolve path).here with
  | none => .error (.os .notFound)
  | some e => .ok e

/-- Whether a path leads to something. -/
def exists? (t : FileTree) (path : String) : Bool :=
  (t.lookup path).isOk

/-- Whether a path leads to a file. -/
def isFile (t : FileTree) (path : String) : Bool :=
  match t.lookup path with
  | .ok (.file _) => true
  | _ => false

/-- Whether a path leads to a directory. -/
def isDirectory (t : FileTree) (path : String) : Bool :=
  match t.lookup path with
  | .ok (.directory _) => true
  | _ => false

/-- The contents of a file. -/
def read (t : FileTree) (path : String) : Except IoError Bytes := do
  match ← t.lookup path with
  | .directory _ => .error (.os .isDirectory)
  | .file f => if f.readable then .ok f.content else .error (.os .permissionDenied)

/-- The tree with something at a path, whatever was there before. -/
def put (t : FileTree) (path : String) (e : Entry) : Except IoError FileTree := do
  let trail ← t.resolve path
  pure { t with root := trail.put e }

/-- The tree after a file has been written.  A file that is there already keeps what may be
done with it. -/
def write (t : FileTree) (path : String) (content : Bytes) : Except IoError FileTree := do
  let trail ← t.resolve path
  match trail.here with
  | some (.directory _) => .error (.os .isDirectory)
  | some (.file f) => .ok { t with root := trail.put (.file { f with content }) }
  | none => .ok { t with root := trail.put (.file { content }) }

/-! ## New directories -/

/-- The tree with a new directory.  What comes before the last part of its path has to be a
directory, and the last part has to be the name of nothing. -/
def makeDirectory (t : FileTree) (path : String) : Except IoError FileTree :=
  match (Path.parts path).getLast? with
  | none => .error ((refusal? path).getD (.os .alreadyExists))
  | some name => do
    let parent ← t.resolveParts path ((Path.parts path).dropLast ++ ["."])
    if name = "." ∨ name = ".." then .error (.os .alreadyExists)
    else
      let trail ← (parent.follow [name]).mapError .os
      if trail.here.isSome then .error (.os .alreadyExists)
      else .ok { t with root := trail.put .empty }

/-- What an error means to whoever needs a directory: nothing, if the directory is there. -/
def unlessDirectory (t : FileTree) (path : String) (e : IoError) : Except IoError Unit :=
  if t.isDirectory path then .ok () else .error e

/-- Makes a directory with given components, last one first, and the directories above it.  They
are made only if the directory cannot be made without them. -/
def createAbove (t : FileTree) (path : String) : List String → Except IoError Unit × FileTree
  | [] => (.ok (), t)
  | _ :: above =>
    match t.makeDirectory path with
    | .ok t => (.ok (), t)
    | .error e =>
      if e.isNotFound then
        match createAbove t (Path.ofComponents above.reverse) above with
        | (.error e, t) => (.error e, t)
        | (.ok (), t) =>
          match t.makeDirectory path with
          | .ok t => (.ok (), t)
          | .error e => (t.unlessDirectory path e, t)
      else (t.unlessDirectory path e, t)

/-- Makes a directory and the directories above it, as far as they are missing.  An empty path
needs none. -/
def createDirectories (t : FileTree) (path : String) : Except IoError Unit × FileTree :=
  t.createAbove path (Path.components path).reverse

/-! ## Paths of the tree -/

/-- The path of the current directory. -/
def currentPath (t : FileTree) : String :=
  "/" ++ "/".intercalate t.current

/-- The number of names in a directory. -/
def entryCount (t : FileTree) (directory : String) : Nat :=
  match t.lookup directory with
  | .ok e => e.entries.length
  | .error _ => 0

/-- The path of a new file in a directory, from the root on.  Its name is a number between a
given start and a given end; as there are more numbers than names in the directory, one of
them is free. -/
def freshPath (t : FileTree) (directory start ending : String) : String :=
  let directory := Path.join t.currentPath directory
  let path (n : Nat) :=
    Path.join directory (start ++ String.ofList (zeroPadded 6 n) ++ ending)
  let numbers := List.range (t.entryCount directory + 1)
  path ((numbers.find? fun n => !t.exists? (path n)).getD 0)

end FileTree

end BuildLens
