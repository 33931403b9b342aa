/-
Paths of files, as texts.

The parts of a path are separated by slashes.  Repeated slashes, slashes at the end and the
part `.` behind another one mean nothing; the part `..` names no file.  A file name is cut
at its last dot into a stem and an extension; a name that has no dot but the first
character has no extension.
-/
namespace BuildLens.Path

/-- Whether a path starts at the root. -/
def isAbsolute (path : List Char) : Bool :=
  path.head? == some '/'

/-- A path, last character first, without what means nothing at its end. -/
def dropEnd : List Char → List Char
  | [] => []
  | c :: cs =>
    if c = '/' then dropEnd cs
    else
      match cs with
      | [] => [c]
      | d :: ds => if c = '.' ∧ d = '/' then dropEnd (d :: ds) else c :: d :: ds

/-- A path without what means nothing at its end. -/
def core (path : List Char) : List Char :=
  (dropEnd path.reverse).reverse

/-- The last part of a path. -/
def lastPart (path : List Char) : List Char :=
  (path.reverse.takeWhile (· != '/')).reverse

/-- A path without its last part, up to the slash before it. -/
def withoutLastPart (path : List Char) : List Char :=
  (path.reverse.dropWhile (· != '/')).reverse

/-- The name of the file that a path leads to. -/
def fileName (path : List Char) : Option (List Char) :=
  let name := lastPart (core path)
  if name = [] ∨ name = ['.'] ∨ name = ['.', '.'] then none else some name

/-- A name, cut at its last dot: what stands before it and what stands behind it. -/
def cutAtDot (name : List Char) : Option (List Char × List Char) :=
  match name.reverse.dropWhile (· != '.') with
  | [] => none
  | _ :: stem => some (stem.reverse, (name.reverse.takeWhile (· != '.')).reverse)

/-- The extension of a file name. -/
def nameExtension (name : List Char) : Option (List Char) :=
  match cutAtDot name with
  | none => none
  | some (stem, extension) => if stem.isEmpty then none else some extension

/-- The stem of a file name. -/
def nameStem (name : List Char) : List Char :=
  match cutAtDot name with
  | none => name
  | some (stem, _) => if stem.isEmpty then name else stem

/-- The extension of the file that a path leads to. -/
def extension (path : String) : Option String :=
  ((fileName path.toList).bind nameExtension).map String.ofList

/-- The stem of the file that a path leads to. -/
def stem (path : String) : Option String :=
  ((fileName path.toList).map nameStem).map String.ofList

/-- A path with another extension.  The characters of the old extension are cut off at the
end of the path, and what is left gets the new one in place of an extension of its own.  A
path that leads to no file gets none, and an empty extension comes without a dot. -/
def withExtension (path extension : String) : String :=
  let old := ((fileName path.toList).bind nameExtension).getD []
  let rest := path.toList.take (path.toList.length - old.length)
  match fileName rest with
  | none => String.ofList rest
  | some name =>
    let base := withoutLastPart (core rest) ++ nameStem name
    String.ofList (if extension.isEmpty then base else base ++ '.' :: extension.toList)

/-- A path inside a directory.  A path from the root stays as it is. -/
def join (directory path : String) : String :=
  if isAbsolute path.toList then path
  else if directory.isEmpty ∨ directory.toList.getLast? = some '/' then directory ++ path
  else directory ++ "/" ++ path

/-! ## Components -/

/-- The parts of a path between its slashes. -/
def parts (path : String) : List String :=
  ((path.toList.splitOn '/').map String.ofList).filter (· != "")

/-- The parts of a path that mean something: the root or the current directory, if the path
starts there, and then names and the part `..`. -/
def components (path : String) : List String :=
  let named := (parts path).filter (· != ".")
  if isAbsolute path.toList then "/" :: named
  else if (parts path).head? = some "." then "." :: named
  else named

/-- The path of some components. -/
def ofComponents : List String → String
  | "/" :: named => "/" ++ "/".intercalate named
  | cs => "/".intercalate cs

/-- The path of the directory above; empty for a name alone, and the root for the root. -/
def parent (path : String) : String :=
  match components path with
  | ["/"] => "/"
  | cs => ofComponents cs.dropLast

/-- Whether two paths differ at most in what means nothing. -/
def isSame (path other : String) : Bool :=
  components path == components other

end BuildLens.Path
