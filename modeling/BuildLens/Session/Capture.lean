/-
What a session is about.

A session starts from the active document: the line of code at the cursor, and the function
around it.  If the document is a header, the file that implements it is compiled; the line
and the function stay those of the header.
-/
import BuildLens.Host.World
import BuildLens.Session.Config

namespace BuildLens

open BuildLens.Text

/-- What a session is about. -/
structure Capture where
  /-- The file that is compiled. -/
  file : String
  /-- The target that the file belongs to. -/
  target : Target
  /-- The signature of the function around the cursor; empty if it is not known. -/
  signature : String
  /-- The line of code near the cursor. -/
  line : Option String
  deriving DecidableEq, Repr

namespace Capture

variable {σ : Type}

/-- The line at a distance from the cursor, unless there can be none. -/
def probedLine (cursor : Nat) (offset : Int) : Option Nat :=
  let line := (cursor : Int) + offset
  if 1 ≤ line ∧ line ≤ maxWord64 then some line.toNat else none

/-- The first of some lines that is not blank, without white space around it. -/
def firstCode (h : Host σ) (path : String) :
    List Nat → World σ → Except SessionError String × World σ
  | [], w => (.error .noUsableSourceLine, w)
  | line :: lines, w =>
    match w.ask h (.lineText path line) with
    | (.error e, w) => (.error (.ofHost e), w)
    | (.ok none, w) => firstCode h path lines w
    | (.ok (some text), w) =>
      if isBlank text then firstCode h path lines w else (.ok (trimmed text), w)

/-- The line of code near the cursor of a document. -/
def codeLine (h : Host σ) (config : SessionConfig) (d : Document) (w : World σ) :
    Except SessionError String × World σ :=
  firstCode h d.path (config.probeOffsets.filterMap (probedLine d.cursorLine)) w

/-- What the user is told if the function around the cursor is not known. -/
def unknownFunction : String :=
  "Warning: could not get function object from the IDE."

/-- The signature of the function around the cursor of a document. -/
def signatureOf (h : Host σ) (d : Document) (w : World σ) : String × World σ :=
  match d.enclosingFunction with
  | some s => if isBlank s then ("", w.tell h (.showStatus unknownFunction)) else (trimmed s, w)
  | none => ("", w.tell h (.showStatus unknownFunction))

/-- The document that is compiled: the given one, or the one that implements it. -/
def implementation (h : Host σ) (config : SessionConfig) (d : Document) (w : World σ) :
    Except SessionError Document × World σ :=
  if config.isHeader d.path then
    match w.ask h (.switchToSibling d.path config.implementationExtensions) with
    | (.error e, w) => (.error (.ofHost e), w)
    | (.ok none, w) => (.error .noImplementationFile, w)
    | (.ok (some _), w) =>
      match w.ask h .activeDocument with
      | (.error e, w) => (.error (.ofHost e), w)
      | (.ok d, w) => (.ok d, w)
  else (.ok d, w)

/-- What a session is about that starts now. -/
def take (h : Host σ) (config : SessionConfig) (w : World σ) :
    Except SessionError Capture × World σ :=
  match w.ask h .activeDocument with
  | (.error e, w) => (.error (.ofHost e), w)
  | (.ok document, w) =>
    match codeLine h config document w with
    | (.error e, w) => (.error e, w)
    | (.ok line, w) =>
      let (signature, w) := signatureOf h document w
      match implementation h config document w with
      | (.error e, w) => (.error e, w)
      | (.ok d, w) =>
        match d.target with
        | none => (.error (.notInProject d.path), w)
        | some target => (.ok ⟨d.path, target, signature, some line⟩, w)

end Capture

end BuildLens
