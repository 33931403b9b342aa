/-
Generated outputs: the two kinds of files a session can show, and a place in such a file.
-/
import BuildLens.Json.Record
import BuildLens.Text.Numeral

namespace BuildLens

/-- A kind of generated file. -/
inductive Mode where
  /-- An assembly listing. -/
  | assembly
  /-- Preprocessed source. -/
  | preprocessed
  deriving DecidableEq, Repr

namespace Mode

/-- The name of a kind of generated file. -/
def name : Mode → String
  | .assembly => "assembly"
  | .preprocessed => "preprocessed"

/-- The extension of the files of a kind. -/
def extension : Mode → String
  | .assembly => "asm"
  | .preprocessed => "cpp"

/-- The kind of generated file of a name. -/
def ofName (s : String) : Option Mode :=
  [Mode.assembly, .preprocessed].find? fun v => v.name == s

/-- The kind of generated file that a JSON value stands for. -/
def ofJson : Json → Option Mode :=
  Json.named Json.isNull ofName

/-- A kind of generated file in JSON. -/
def toJson (m : Mode) : Json :=
  .text m.name

end Mode

/-- A place in a generated file, and what led to it. -/
structure Location where
  /-- Whether the function was found. -/
  functionAnchorFound : Bool
  /-- Whether the source line was found. -/
  lineAnchorFound : Bool
  /-- The place, as a number of bytes from the start of the file. -/
  cursorOffset : Nat
  /-- The line of the place, counted from 1. -/
  cursorLine : Nat
  deriving DecidableEq, Repr

namespace Location

/-- The start of a file. -/
def documentStart : Location :=
  ⟨false, false, 0, 1⟩

/-- Whether anything was found. -/
def isAnchored (l : Location) : Bool :=
  l.functionAnchorFound || l.lineAnchorFound

/-- The place that a JSON value stands for. -/
def ofJson (j : Json) : Option Location := do
  let r ← Json.record
    ["function_anchor_found", "line_anchor_found", "cursor_offset", "cursor_line"] j
  let functionAnchorFound ← r.required "function_anchor_found" Json.bool?
  let lineAnchorFound ← r.required "line_anchor_found" Json.bool?
  let cursorOffset ← r.required "cursor_offset" (Json.nat? Text.maxWord64)
  let cursorLine ← r.required "cursor_line" (Json.nat? Text.maxWord64)
  pure ⟨functionAnchorFound, lineAnchorFound, cursorOffset, cursorLine⟩

/-- A place in JSON. -/
def toJson (l : Location) : Json :=
  .object [("function_anchor_found", .bool l.functionAnchorFound),
    ("line_anchor_found", .bool l.lineAnchorFound), ("cursor_offset", .integer l.cursorOffset),
    ("cursor_line", .integer l.cursorLine)]

end Location

end BuildLens
