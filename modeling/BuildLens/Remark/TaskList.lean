/-
The list of diagnostics that have been reported.

Build output accumulates, so the same remark is found again and again; only the first
sighting of a raw message enters the list.
-/
import BuildLens.Remark.Extract

namespace BuildLens

/-- The diagnostics reported so far, in the order of their first sighting. -/
structure TaskList where
  /-- The diagnostics. -/
  items : List Diagnostic := []

namespace TaskList

/-- The list without diagnostics. -/
def empty : TaskList :=
  {}

/-- Whether a diagnostic with a given raw message is listed. -/
def lists (t : TaskList) (rawMessage : String) : Bool :=
  t.items.any fun d => d.rawMessage == rawMessage

/-- The list with a diagnostic, unless its raw message is already listed. -/
def add (t : TaskList) (d : Diagnostic) : TaskList :=
  if t.lists d.rawMessage then t else ⟨t.items ++ [d]⟩

/-- The list with the new ones of some diagnostics, and these in order. -/
def addAll (t : TaskList) : List Diagnostic → TaskList × List Diagnostic
  | [] => (t, [])
  | d :: ds =>
    if t.lists d.rawMessage then t.addAll ds
    else
      let (u, fresh) := (t.add d).addAll ds
      (u, d :: fresh)

/-- The number of diagnostics. -/
def length (t : TaskList) : Nat :=
  t.items.length

/-- The diagnostics of a file. -/
def byFile (t : TaskList) (path : String) : List Diagnostic :=
  t.items.filter fun d => d.filePath == path

/-- The number of diagnostics of a severity. -/
def count (t : TaskList) (s : Severity) : Nat :=
  t.items.countP fun d => d.severity == s

end TaskList

namespace Remark

/-- The diagnostics of a text without repeated raw messages. -/
def extractUnique (f : RemarkFamily) (cs : List Char) : List Diagnostic :=
  (TaskList.empty.addAll (extract f cs)).1.items

end Remark

end BuildLens
