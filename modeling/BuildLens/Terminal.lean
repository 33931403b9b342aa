/-
The terminal as a host.

The active document is a file that is named on the command line, options become arguments
of a compiler, and what there is to show is printed.  Building a project means compiling the
active document.  A terminal can also do without a document and serve what an earlier build
has printed.
-/
import BuildLens.Compiler.Arguments
import BuildLens.Compiler.Machine
import BuildLens.Host.World
import BuildLens.Progress.Percent
import BuildLens.Text.Line

namespace BuildLens

open BuildLens.Text

/-- A terminal and what it works on. -/
structure Terminal where
  /-- The active document. -/
  document : Option Document := none
  /-- The compiler. -/
  compiler : Option String := none
  /-- The options of every file. -/
  options : Options := {}
  /-- What the builds have printed. -/
  buildOutput : String := ""
  /-- The generated file that was shown last. -/
  opened : Option (String × Location) := none
  /-- Whether the builds of projects are announced to anybody. -/
  connected : Bool := false
  /-- Whether nothing is printed. -/
  quiet : Bool := false
  /-- The time at which builds happen. -/
  now : Instant
  /-- What was printed. -/
  printed : String := ""
  /-- What was printed as notes. -/
  notes : String := ""
  /-- The arguments of every program that was started. -/
  launches : List (List String) := []

namespace Terminal

/-- The terminal after a line is printed. -/
def print (s : Terminal) (line : String) : Terminal :=
  if s.quiet then s else { s with printed := s.printed ++ line ++ "\n" }

/-- The terminal after a line is printed as a note. -/
def note (s : Terminal) (line : String) : Terminal :=
  if s.quiet then s else { s with notes := s.notes ++ line ++ "\n" }

/-! ## Documents -/

/-- The active document. -/
def activeDocument (s : Terminal) : Except HostError Document :=
  match s.document with
  | none => .error (.notFound "no active document")
  | some d => .ok d

/-- A line of a file, counted from 1. -/
def lineText (t : FileTree) (path : String) (line : Nat) :
    Except HostError (Option String) :=
  if line = 0 then .ok none
  else
    match t.read path with
    | .error e => .error (.io e)
    | .ok content => .ok ((lines (Utf8.decode content))[line - 1]?.map String.ofList)

/-- The first file that differs from a given one in its extension only. -/
def sibling (t : FileTree) (path : String) (extensions : List String) : Option String :=
  (extensions.map (Path.withExtension path)).find? t.isFile

/-- The terminal after another file is made active, with the cursor at its start. -/
def activate (s : Terminal) (path : String) : Terminal :=
  { s with document := s.document.map fun d => { d with path, cursorLine := 1 } }

/-! ## Compiling -/

/-- The errors that mean that there is no program to be started. -/
def unavailable : List IoError :=
  [.os .notPermitted, .os .notFound, .os .permissionDenied]

/-- Why a compiler could not be started. -/
def startError (compiler : String) (e : IoError) : HostError :=
  if unavailable.contains e then .toolUnavailable (compiler ++ ": " ++ e.message) else .io e

/-- The terminal after a compiler has run. -/
def afterRun (s : Terminal) (arguments : List String) (f : Finished) : Terminal :=
  { s with
    buildOutput := s.buildOutput ++ textOf f.output ++ textOf f.errors
    launches := s.launches ++ [arguments] }

/-- Compiles a file: whether the compiler accepts it, and what has changed. -/
def compile (m : Machine) (s : Terminal) (t : FileTree) (file : String) :
    Except HostError Bool × Terminal × FileTree :=
  match s.compiler with
  | none => (.error (.unsupported "compiling without a compiler"), s, t)
  | some compiler =>
    let arguments := s.options.arguments ++ [file]
    match m.start compiler arguments t with
    | .error e => (.error (startError compiler e), s, t)
    | .ok f => (.ok f.success, s.afterRun arguments f, f.files)

/-- The event that the build of a target begins. -/
def beginning (s : Terminal) (target : Target) : BuildEvent :=
  .projectBegin target.project target.configuration target.platform target.configuration s.now

/-- Builds a target.  A build whose compiler cannot be started begins and does not end. -/
def build (m : Machine) (s : Terminal) (t : FileTree) (target : Target) :
    Reply Terminal (Except HostError Unit) :=
  if !s.connected then ⟨.error (.unsupported "project builds"), s, t, []⟩
  else
    match s.activeDocument with
    | .error e => ⟨.error e, s, t, []⟩
    | .ok d =>
      match s.compile m t d.path with
      | (.error e, s, t) => ⟨.error e, s, t, [.event (s.beginning target)]⟩
      | (.ok success, s, t) =>
        ⟨.ok (), s, t, [.event (s.beginning target),
          .event (.ofProjectDone target.project success s.now)]⟩

/-! ## Showing -/

/-- The terminal after a generated file is shown. -/
def openArtifact (s : Terminal) (path : String) (l : Location) : Terminal :=
  { s.print s!"{path}:{l.cursorLine}" with opened := some (path, l) }

/-- The terminal after the progress of a build is shown. -/
def showProgress (s : Terminal) (r : ProgressReport) : Terminal :=
  match r.state with
  | .normal => s.note ("[" ++ r.value.percentText ++ "]")
  | .error => s.note ("[" ++ r.value.percentText ++ "] errors")
  | _ => s

/-! ## The host -/

/-- The host that a terminal is, on a machine. -/
def host (m : Machine) : Host Terminal where
  reply
    | .activeDocument, s, t => ⟨s.activeDocument, s, t, []⟩
    | .lineText path line, s, t => ⟨lineText t path line, s, t, []⟩
    | .switchToSibling path extensions, s, t =>
      match sibling t path extensions with
      | none => ⟨.ok none, s, t, []⟩
      | some other => ⟨.ok (some other), s.activate other, t, []⟩
    | .readOptions _ _, s, t => ⟨.ok s.options, s, t, []⟩
    | .writeOptions _ _ options, s, t => ⟨.ok (), { s with options }, t, []⟩
    | .compileFile file, s, t =>
      match s.compile m t file with
      | (.ok success, s, t) => ⟨.ran success, s, t, []⟩
      | (.error e, s, t) => ⟨.refused e, s, t, []⟩
    | .buildProject target, s, t => s.build m t target
    | .buildOutput, s, t => ⟨.ok s.buildOutput, s, t, []⟩
    | .openArtifact path l, s, t => ⟨.ok (), s.openArtifact path l, t, []⟩
    | .showStatus text, s, t => ⟨(), s.note text, t, []⟩
    | .addDiagnostic d, s, t => ⟨(), s.print d.display, t, []⟩
    | .showError _ _, s, t => ⟨(), s, t, []⟩
    | .appendOutput text, s, t => ⟨(), { s with buildOutput := s.buildOutput ++ text }, t, []⟩
    | .showProgress r, s, t => ⟨(), s.showProgress r, t, []⟩

end Terminal

end BuildLens
