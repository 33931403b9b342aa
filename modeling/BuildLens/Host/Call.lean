/-
What is asked of a host.

A host is the editor and the build system around a session: it knows the document, compiles
files, builds projects and shows what there is to show.  Everything that is asked of it is a
`HostCall`, and every call has answers of its own type.
-/
import BuildLens.Host.Error
import BuildLens.Model.Diagnostic
import BuildLens.Model.Document
import BuildLens.Model.Options
import BuildLens.Model.Output
import BuildLens.Progress.Report

namespace BuildLens

/-- A call to a host. -/
inductive HostCall where
  /-- Which document is active? -/
  | activeDocument
  /-- What does a line of a file say? -/
  | lineText (path : String) (line : Nat)
  /-- Make the first file active that differs from a given one in its extension only and has
  one of the given extensions. -/
  | switchToSibling (path : String) (extensions : List String)
  /-- Which options has a file? -/
  | readOptions (file : String) (target : Target)
  /-- Give a file these options. -/
  | writeOptions (file : String) (target : Target) (options : Options)
  /-- Compile one file. -/
  | compileFile (file : String)
  /-- Start to build a project; its end is an event. -/
  | buildProject (target : Target)
  /-- What have the builds printed? -/
  | buildOutput
  /-- Show a place in a generated file. -/
  | openArtifact (path : String) (location : Location)
  /-- Show a text in the status bar. -/
  | showStatus (text : String)
  /-- Add a diagnostic to the list of tasks. -/
  | addDiagnostic (d : Diagnostic)
  /-- Show an error and wait for the user to close it. -/
  | showError (text title : String)
  /-- Add a text to what the builds have printed. -/
  | appendOutput (text : String)
  /-- Show the progress of a build. -/
  | showProgress (report : ProgressReport)
  deriving DecidableEq

/-- How the compilation of one file ends. -/
inductive Compiled where
  /-- The compiler has run, with or without success. -/
  | ran (success : Bool)
  /-- The host did not compile the file. -/
  | refused (e : HostError)
  /-- The compilation broke down, and what asked for it cannot go on. -/
  | crashed
  deriving DecidableEq, Repr

/-- The answers to a call. -/
abbrev HostCall.Answer : HostCall → Type
  | .activeDocument => Except HostError Document
  | .lineText _ _ => Except HostError (Option String)
  | .switchToSibling _ _ => Except HostError (Option String)
  | .readOptions _ _ => Except HostError Options
  | .writeOptions _ _ _ => Except HostError Unit
  | .compileFile _ => Compiled
  | .buildProject _ => Except HostError Unit
  | .buildOutput => Except HostError String
  | .openArtifact _ _ => Except HostError Unit
  | .showStatus _ => Unit
  | .addDiagnostic _ => Unit
  | .showError _ _ => Unit
  | .appendOutput _ => Unit
  | .showProgress _ => Unit

/-- The answer to a call that fails.  What only shows something cannot fail. -/
def HostCall.failure? (e : HostError) : (c : HostCall) → Option c.Answer
  | .activeDocument => some (.error e)
  | .lineText _ _ => some (.error e)
  | .switchToSibling _ _ => some (.error e)
  | .readOptions _ _ => some (.error e)
  | .writeOptions _ _ _ => some (.error e)
  | .compileFile _ => some (.refused e)
  | .buildProject _ => some (.error e)
  | .buildOutput => some (.error e)
  | .openArtifact _ _ => some (.error e)
  | .showStatus _ => none
  | .addDiagnostic _ => none
  | .showError _ _ => none
  | .appendOutput _ => none
  | .showProgress _ => none

/-- A call and its answer. -/
structure Exchange where
  /-- The call. -/
  call : HostCall
  /-- The answer. -/
  answer : call.Answer

end BuildLens
