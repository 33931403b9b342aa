/-
Anchors in generated files.

A generated file is searched for a function first and then, behind it, for a source line.
Both searches are literal and go through the bytes of the file, which need not be
well-formed text: the places found are places in the file itself.

In an assembly listing a function is introduced by `PROC ; ` and its name.  In preprocessed
source its name is followed by an opening parenthesis.  A template is written there with
the arguments of its instances, so its signature is cut off behind its first `<`; a
signature that starts with `<` is no template.
-/
import BuildLens.Locate.Search
import BuildLens.Model.Output
import BuildLens.Text.Blank

namespace BuildLens.Locate

open BuildLens.Text

/-- What stands before the name of a function in an assembly listing. -/
def procedureMarker : List Char :=
  ['P', 'R', 'O', 'C', ' ', ';', ' ']

/-- What stands behind the name of a function in preprocessed source. -/
def callMarker : List Char :=
  ['(']

/-- What opens the parameters of a template. -/
def templateMarker : Char :=
  '<'

/-- A signature, cut off behind the `<` that opens the parameters of a template. -/
def normalize (signature : List Char) : List Char :=
  let name := signature.takeWhile (· != templateMarker)
  if name.isEmpty || name.length == signature.length then signature
  else name ++ [templateMarker]

/-- What is searched for to find a function, unless its signature is blank. -/
def functionNeedle (mode : Mode) (signature : List Char) : Option (List Char) :=
  let name := normalize (trim signature)
  if name.isEmpty then none
  else
    match mode with
    | .assembly => some (procedureMarker ++ name)
    | .preprocessed =>
      if name.getLast? = some templateMarker then some name else some (name ++ callMarker)

/-- What is searched for to find a source line, unless it is blank. -/
def lineNeedle (line : Option (List Char)) : Option (List Char) :=
  (line.map trim).filter fun l => !l.isEmpty

/-- Where a function is found. -/
def functionAnchor (mode : Mode) (artifact : Bytes) (signature : List Char) :
    Option (Nat × Nat) :=
  match functionNeedle mode signature with
  | none => none
  | some needle =>
    let bytes := Utf8.encode needle
    (find? bytes artifact).map fun place => (place, place + bytes.length)

/-- Where a source line is found at or behind a place. -/
def lineAnchor (artifact : Bytes) (start : Nat) (line : Option (List Char)) : Option Nat :=
  match lineNeedle line with
  | none => none
  | some needle => (find? (Utf8.encode needle) (artifact.drop start)).map (start + ·)

/-- The place of a function and a source line in a generated file: that of the line if it is
found, else that of the function, else the start. -/
def locate (mode : Mode) (artifact : Bytes) (signature : List Char)
    (line : Option (List Char)) : Location :=
  let function := functionAnchor mode artifact signature
  let behind := (function.map Prod.snd).getD 0
  let line := lineAnchor artifact behind line
  let offset := line.getD ((function.map Prod.fst).getD 0)
  { functionAnchorFound := function.isSome
    lineAnchorFound := line.isSome
    cursorOffset := offset
    cursorLine := lineAt artifact offset }

end BuildLens.Locate
