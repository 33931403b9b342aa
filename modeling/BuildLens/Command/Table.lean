/-
What commands print.

Diagnostics are printed as a table of four columns.  The first three have a least width, in
characters; a path that is too long for its column loses its start.
-/
import BuildLens.Json.Printer
import BuildLens.Model.Diagnostic
import BuildLens.Model.Output
import BuildLens.Progress.Tracker
import BuildLens.Remark.Family

namespace BuildLens

open BuildLens.Text

/-- A JSON value over several lines. -/
def prettyJson (j : Json) : String :=
  String.ofList (j.renderPretty 0)

namespace Table

/-- The width of the column of paths. -/
def pathWidth : Nat :=
  40

/-- The width of the columns of lines and of reason codes. -/
def numberWidth : Nat :=
  6

/-- What stands for the start of a path that was cut. -/
def cutMark : List Char :=
  ['.', '.', '.']

/-- The end of a text that is too long, behind a mark; any other text as it is. -/
def keepEnd (width : Nat) (cs : List Char) : List Char :=
  if cs.length ≤ width then cs
  else cutMark ++ cs.drop (cs.length - (width - cutMark.length))

/-- A row. -/
def row (path line code : List Char) (message : String) : String :=
  String.ofList (padRight pathWidth ' ' path ++ [' ', ' '] ++
    padLeft numberWidth ' ' line ++ [' ', ' '] ++
    padLeft numberWidth ' ' code ++ [' ', ' ']) ++ message

/-- The row of a diagnostic. -/
def diagnosticRow (d : Diagnostic) : String :=
  row (keepEnd pathWidth d.filePath.toList) (digits d.line) d.code.toList d.rawMessage

/-- The names of the columns. -/
def heading : String :=
  row "FILE".toList "LINE".toList "REASON".toList "MESSAGE"

/-- The line below the heading. -/
def rule : String :=
  String.ofList (List.replicate 80 '-')

end Table

/-- The lines of a report on diagnostics. -/
def diagnosticLines (f : RemarkFamily) (ds : List Diagnostic) : List String :=
  if ds.isEmpty then ["No " ++ f.id ++ " remarks found."]
  else Table.heading :: Table.rule :: ds.map Table.diagnosticRow ++
    ["", s!"{ds.length} remark(s)"]

/-- Whether something was found. -/
def foundText (found : Bool) : String :=
  if found then "found" else "not found"

/-- The lines of a report on a place in a file. -/
def locationLines (path : String) (l : Location) : List String :=
  [s!"{path}:{l.cursorLine}",
    "  Function anchor: " ++ foundText l.functionAnchorFound,
    "  Line anchor:     " ++ foundText l.lineAnchorFound,
    s!"  Offset:          {l.cursorOffset}"]

/-- The lines of a report on a recorded build: how long the last timed build took, how many
projects are done, and how many remarks were found. -/
def buildLines (t : Tracker) (remarks : Nat) : List String :=
  (t.lastElapsed.toList.map fun elapsed => "Last build took " ++ elapsed.format) ++
    [s!"{t.state.completedProjects}/{t.state.totalProjects} project(s) completed" ++
      if t.state.hasError then ", with errors" else "",
    s!"{remarks} remark(s) reported"]

end BuildLens
