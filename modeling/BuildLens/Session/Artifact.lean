/-
Generated files.

The compiler is asked to write to a file of its own for every session.  Preprocessed source
has long runs of empty lines, so a copy without them is shown instead.
-/
import BuildLens.Files.Tree
import BuildLens.Model.Options
import BuildLens.Model.Output
import BuildLens.Text.Line

namespace BuildLens

open BuildLens.Text

/-- The file that a session asks the compiler to write. -/
def artifactPath (directory session : String) (mode : Mode) : String :=
  Path.join directory ("devutils-" ++ session ++ "." ++ mode.extension)

/-- The options with which the compiler writes a file of the given kind.  Code that is
generated when the program is linked has no listing, and warnings must not stop the
compiler; preprocessed source is written in place of the object file. -/
def Options.configured (mode : Mode) (artifact : String) (o : Options) : Options :=
  match mode with
  | .assembly =>
    { o with
      wholeProgramOptimization := false
      warnAsError := false
      assemblerOutput := .asmWithSource
      assemblerListingLocation := some artifact }
  | .preprocessed =>
    { o with
      generatePreprocessedFile := .yes
      objectFile := some artifact }

/-- The bytes of a file without its empty lines. -/
def strippedBytes (content : Bytes) : Bytes :=
  Utf8.encode (withoutEmptyLines (Utf8.decode content))

/-- The path of a new file for stripped source. -/
def freshCopyPath (t : FileTree) (directory : String) : String :=
  t.freshPath directory "devutils-clean-" ".cpp"

/-- Makes a copy of a file without empty lines, in a directory that is made if need be: the path
of the copy, and the files after that. -/
def stripEmptyLines (t : FileTree) (source directory : String) :
    Except IoError String × FileTree :=
  match t.read source with
  | .error e => (.error e, t)
  | .ok content =>
    match t.createDirectories directory with
    | (.error e, t) => (.error e, t)
    | (.ok (), t) =>
      let path := freshCopyPath t directory
      match t.write path (strippedBytes content) with
      | .error e => (.error e, t)
      | .ok t => (.ok path, t)

end BuildLens
