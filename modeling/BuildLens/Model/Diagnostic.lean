/-
Diagnostics: what a compiler remarked about one line of a source file.
-/
import BuildLens.Json.Record
import BuildLens.Text.Numeral

namespace BuildLens

/-- How serious a diagnostic is. -/
inductive Severity where
  /-- An error. -/
  | error
  /-- A warning. -/
  | warning
  /-- A remark; what a diagnostic is unless it says otherwise. -/
  | message
  deriving DecidableEq, Repr

namespace Severity

/-- The name of a severity. -/
def name : Severity → String
  | .error => "error"
  | .warning => "warning"
  | .message => "message"

/-- The severity of a name. -/
def ofName (s : String) : Option Severity :=
  [Severity.error, .warning, .message].find? fun v => v.name == s

/-- The severity that a JSON value stands for. -/
def ofJson : Json → Option Severity :=
  Json.named Json.isNull ofName

/-- A severity in JSON. -/
def toJson (s : Severity) : Json :=
  .text s.name

end Severity

/-- A remark of a compiler about one line of a file. -/
structure Diagnostic where
  /-- The remark as the compiler wrote it. -/
  rawMessage : String
  /-- The file that the remark is about. -/
  filePath : String
  /-- The line that the remark is about, counted from 1. -/
  line : Nat
  /-- The reason code. -/
  code : String
  /-- How serious the remark is. -/
  severity : Severity := .message
  deriving DecidableEq, Repr

namespace Diagnostic

/-- The text form of a diagnostic: where, why and what. -/
def display (d : Diagnostic) : String :=
  s!"{d.filePath}({d.line}): [{d.code}] {d.rawMessage}"

/-- The diagnostic that a JSON value stands for. -/
def ofJson (j : Json) : Option Diagnostic := do
  let r ← Json.record ["raw_message", "file_path", "line", "code", "severity"] j
  let rawMessage ← r.required "raw_message" Json.text?
  let filePath ← r.required "file_path" Json.text?
  let line ← r.required "line" (Json.nat? Text.maxWord32)
  let code ← r.required "code" Json.text?
  let severity ← r.withDefault "severity" Severity.ofJson .message
  pure ⟨rawMessage, filePath, line, code, severity⟩

/-- A diagnostic in JSON. -/
def toJson (d : Diagnostic) : Json :=
  .object [("raw_message", .text d.rawMessage), ("file_path", .text d.filePath),
    ("line", .integer d.line), ("code", .text d.code), ("severity", d.severity.toJson)]

end Diagnostic

end BuildLens
