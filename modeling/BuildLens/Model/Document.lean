/-
Build targets and documents: what is being built, and where the cursor stands.
-/
import BuildLens.Json.Record
import BuildLens.Text.Numeral

namespace BuildLens

/-- A project in one configuration for one platform. -/
structure Target where
  /-- The name of the project. -/
  project : String
  /-- The configuration. -/
  configuration : String
  /-- The platform. -/
  platform : String
  deriving DecidableEq, Repr

namespace Target

/-- The configuration and the platform, joined by a bar. -/
def configKey (t : Target) : String :=
  t.configuration ++ "|" ++ t.platform

/-- The text form of a target: the project, and in parentheses how it is built. -/
def display (t : Target) : String :=
  t.project ++ " (" ++ t.configKey ++ ")"

/-- The target that a JSON value stands for. -/
def ofJson (j : Json) : Option Target := do
  let r ← Json.record ["project", "configuration", "platform"] j
  let project ← r.required "project" Json.text?
  let configuration ← r.required "configuration" Json.text?
  let platform ← r.required "platform" Json.text?
  pure ⟨project, configuration, platform⟩

/-- A target in JSON. -/
def toJson (t : Target) : Json :=
  .object [("project", .text t.project), ("configuration", .text t.configuration),
    ("platform", .text t.platform)]

end Target

/-- A document and the cursor in it. -/
structure Document where
  /-- The file. -/
  path : String
  /-- The line of the cursor, counted from 1. -/
  cursorLine : Nat
  /-- The signature of the function around the cursor, if it is known. -/
  enclosingFunction : Option String := none
  /-- The target that the file belongs to, if there is one. -/
  target : Option Target := none
  deriving DecidableEq, Repr

namespace Document

/-- A document at a line, with the function around it. -/
def atFunction (path : String) (cursorLine : Nat) (signature : String) : Document :=
  { path, cursorLine, enclosingFunction := some signature }

/-- The document that a JSON value stands for. -/
def ofJson (j : Json) : Option Document := do
  let r ← Json.record ["path", "cursor_line", "enclosing_function", "target"] j
  let path ← r.required "path" Json.text?
  let cursorLine ← r.required "cursor_line" (Json.nat? Text.maxWord64)
  let enclosingFunction ← r.optional "enclosing_function" Json.text?
  let target ← r.optional "target" Target.ofJson
  pure ⟨path, cursorLine, enclosingFunction, target⟩

/-- A document in JSON; what is not known is left out. -/
def toJson (d : Document) : Json :=
  .object ([("path", .text d.path), ("cursor_line", .integer d.cursorLine)] ++
    (d.enclosingFunction.toList.map fun f => ("enclosing_function", .text f)) ++
    d.target.toList.map fun t => ("target", t.toJson))

end Document

end BuildLens
