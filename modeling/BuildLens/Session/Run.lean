/-
A session: from a request to see what the compiler makes of the code at the cursor to the
generated file at the right place.

A session claims its target, changes the options of the file, has it compiled, puts the
options back and shows what the compiler has written.  Its phase tells what it holds and what
it does next; `Session.step` takes it to the next phase.  In a step a session either asks the
host or claims or frees its target, so that nothing is asked while the gate changes.

A session runs without a break but for one place: when a project has to be built it waits,
and other sessions go on.  `Session.poll` lets it go on from where it stands to that place or
to its end, and `Session.cancel` ends a session that waits.  However a session ends, it puts
the options back and frees the target.
-/
import BuildLens.Locate.Anchor
import BuildLens.Session.Capture
import BuildLens.Session.Guard
import BuildLens.Session.Stage
import BuildLens.Session.Wait

namespace BuildLens

open BuildLens.Text

/-- A generated file that a session has shown. -/
structure Shown where
  /-- The session. -/
  session : String
  /-- The kind of the file. -/
  mode : Mode
  /-- The file that was shown. -/
  path : String
  /-- The file that the compiler has written. -/
  rawPath : String
  /-- The place that was shown. -/
  location : Location
  deriving DecidableEq, Repr

/-- How a session ended. -/
inductive Outcome where
  /-- It has shown a file. -/
  | shown (a : Shown)
  /-- It has failed. -/
  | failed (e : SessionError)
  /-- The compiler broke down. -/
  | crashed
  /-- It was cancelled. -/
  | cancelled
  deriving DecidableEq, Repr

/-- What a session that compiles holds until the options are put back. -/
structure Work where
  /-- What the session is about. -/
  capture : Capture
  /-- The file that the compiler is asked to write. -/
  artifact : String
  /-- The options to put back. -/
  guard : Guard
  /-- The right to work on the target. -/
  permit : Permit
  deriving DecidableEq, Repr

/-- What a session does after it has freed its target. -/
inductive Exit where
  /-- It looks into what the compiler has written. -/
  | locate (c : Capture) (artifact : String)
  /-- It fails. -/
  | fail (e : SessionError)
  /-- It ends at once. -/
  | stop (o : Outcome)
  deriving DecidableEq, Repr

/-- Where a session stands. -/
inductive Phase where
  /-- It has not begun. -/
  | fresh
  /-- It knows what it is about. -/
  | captured (c : Capture)
  /-- It holds its target, and there is a directory for the generated file. -/
  | admitted (c : Capture) (artifact : String) (permit : Permit)
  /-- It has changed the options. -/
  | configured (work : Work)
  /-- The host does not compile single files. -/
  | refused (work : Work)
  /-- It waits for the build of a project. -/
  | waiting (work : Work) (wait : Wait)
  /-- The compiler is done; if the file was not compiled, it is known why. -/
  | compiled (work : Work) (failure : Option SessionError)
  /-- It was stopped before the compiler was done. -/
  | stopped (work : Work) (o : Outcome)
  /-- It has put the options back, or has not changed them, and still holds its target. -/
  | leaving (permit : Permit) (exit : Exit)
  /-- It has freed its target, and the compiler has written the file. -/
  | locating (c : Capture) (artifact : String)
  /-- It holds nothing, and the user has not been told yet why it fails. -/
  | failing (e : SessionError)
  /-- It has ended. -/
  | ended (o : Outcome)
  deriving DecidableEq, Repr

/-- The phase that follows once the target is free. -/
def Exit.phase : Exit → Phase
  | .locate c artifact => .locating c artifact
  | .fail e => .failing e
  | .stop o => .ended o

/-- How many steps there can be from a phase to the end, if a wait takes one. -/
def Phase.rank : Phase → Nat
  | .fresh => 10
  | .captured _ => 9
  | .admitted _ _ _ => 8
  | .configured _ => 7
  | .refused _ => 6
  | .waiting _ _ => 5
  | .compiled _ _ => 4
  | .stopped _ _ => 4
  | .leaving _ _ => 3
  | .locating _ _ => 2
  | .failing _ => 1
  | .ended _ => 0

/-- A session. -/
structure Session where
  /-- The name of the session. -/
  id : String
  /-- The kind of file that is to be shown. -/
  mode : Mode
  /-- Where the session stands. -/
  phase : Phase := .fresh
  /-- The stages that the session has entered. -/
  history : List Stage := []
  /-- What the session is about, once it is known. -/
  capture : Option Capture := none
  /-- The file that the compiler is asked to write, once it is known. -/
  artifact : Option String := none
  deriving DecidableEq, Repr

namespace Session

variable {σ : Type}

/-- The stage of a session: the one entered last. -/
def stage (s : Session) : Stage :=
  s.history.getLast?.getD .capturing

/-- How a session ended, if it has. -/
def outcome? (s : Session) : Option Outcome :=
  match s.phase with
  | .ended o => some o
  | _ => none

/-- The wait of a session that waits. -/
def wait? (s : Session) : Option Wait :=
  match s.phase with
  | .waiting _ wait => some wait
  | _ => none

/-- How many more steps a session can take, if a wait takes one. -/
def stepsLeft (s : Session) : Nat :=
  s.phase.rank

/-- The session in its next stage. -/
def enter (s : Session) (stage : Stage) : Session :=
  { s with history := s.history ++ [stage] }

/-- The session in another phase. -/
def goTo (s : Session) (phase : Phase) : Session :=
  { s with phase }

/-! ## Capturing and configuring -/

/-- Finds out what the session is about. -/
def begin (h : Host σ) (config : SessionConfig) (s : Session) (w : World σ) :
    Session × World σ :=
  let s := s.enter .capturing
  match Capture.take h config w with
  | (.error e, w) => (s.goTo (.failing e), w)
  | (.ok c, w) => ({ s with capture := some c }.goTo (.captured c), w)

/-- Claims the target and makes the directory for generated files. -/
def claim (config : SessionConfig) (s : Session) (c : Capture) (w : World σ) :
    Session × World σ :=
  let s := s.enter .configuring
  match w.gate.acquire c.target with
  | .error e => (s.goTo (.failing e), w)
  | .ok (gate, permit) =>
    match w.files.createDirectories config.artifactDir with
    | (.error e, files) =>
      (s.goTo (.leaving permit (.fail (.ofIo e))), { w with gate, files })
    | (.ok (), files) =>
      let artifact := artifactPath config.artifactDir s.id s.mode
      ({ s with artifact := some artifact }.goTo (.admitted c artifact permit),
        { w with gate, files })

/-- Changes the options of the file whose target the session holds. -/
def changeOptions (h : Host σ) (s : Session) (c : Capture) (artifact : String)
    (permit : Permit) (w : World σ) : Session × World σ :=
  match Guard.acquire h w c.file c.target (Options.configured s.mode artifact) with
  | (.error e, w) => ((s.enter .restoring).goTo (.leaving permit (.fail (.ofHost e))), w)
  | (.ok guard, w) => (s.goTo (.configured ⟨c, artifact, guard, permit⟩), w)

/-! ## Compiling -/

/-- Has the file compiled. -/
def compile (h : Host σ) (s : Session) (work : Work) (w : World σ) : Session × World σ :=
  let s := s.enter .compiling
  match w.ask h (.compileFile work.capture.file) with
  | (.ran success, w) =>
    (s.goTo (.compiled work (Wait.failureOf work.capture.file (.ok success))), w)
  | (.refused _, w) => (s.goTo (.refused work), w)
  | (.crashed, w) => (s.goTo (.stopped work .crashed), w)

/-- Has the project built. -/
def build (h : Host σ) (config : SessionConfig) (s : Session) (work : Work) (w : World σ) :
    Session × World σ :=
  match Wait.start h config work.capture.target w with
  | (.error e, w) => (s.goTo (.compiled work (some e)), w)
  | (.ok wait, w) => (s.goTo (.waiting work wait), w)

/-- Looks whether the wait of a session is over. -/
def proceed (config : SessionConfig) (s : Session) (work : Work) (wait : Wait)
    (w : World σ) : Session × World σ :=
  match wait.look w config.timeoutSeconds with
  | (none, wait, w) => (s.goTo (.waiting work wait), w)
  | (some result, _, w) =>
    (s.goTo (.compiled work (Wait.failureOf work.capture.file result)),
      { w with hub := w.hub.unsubscribe })

/-- Stops a session that waits. -/
def interrupt (s : Session) (work : Work) (w : World σ) : Session × World σ :=
  (s.goTo (.stopped work .cancelled), { w with hub := w.hub.unsubscribe })

/-! ## Restoring -/

/-- How a session goes on after the compiler is done and the options were put back.  That the
file was not compiled counts more than that the options could not be put back. -/
def exitOf (work : Work) : Option SessionError → Except HostError Unit → Exit
  | some e, _ => .fail e
  | none, .error e => .fail (.ofHost e)
  | none, .ok () => .locate work.capture work.artifact

/-- The compiler is done: puts the options back. -/
def restore (h : Host σ) (s : Session) (work : Work) (failure : Option SessionError)
    (w : World σ) : Session × World σ :=
  let (restored, w) := work.guard.restore h w
  ((s.enter .restoring).goTo (.leaving work.permit (exitOf work failure restored)), w)

/-- Puts the options back of a session that was stopped. -/
def abort (h : Host σ) (s : Session) (work : Work) (o : Outcome) (w : World σ) :
    Session × World σ :=
  (s.goTo (.leaving work.permit (.stop o)), work.guard.drop h w)

/-- Frees the target. -/
def leave (s : Session) (permit : Permit) (exit : Exit) (w : World σ) : Session × World σ :=
  (s.goTo exit.phase, w.release permit)

/-! ## Locating -/

/-- The file that is shown in place of the one that the compiler has written. -/
def readable (config : SessionConfig) (mode : Mode) (artifact : String) (w : World σ) :
    Except IoError String × World σ :=
  match mode with
  | .assembly => (.ok artifact, w)
  | .preprocessed =>
    let (path, files) := stripEmptyLines w.files artifact config.artifactDir
    (path, { w with files })

/-- What the user is told if a function is not found. -/
def functionNotFound (signature : String) : String :=
  "Couldn't find function '" ++ String.ofList (Locate.normalize signature.toList) ++ "'"

/-- Shows a place in a generated file. -/
def present (h : Host σ) (s : Session) (c : Capture) (artifact path : String)
    (content : Bytes) (w : World σ) : Session × World σ :=
  let location := Locate.locate s.mode content c.signature.toList (c.line.map String.toList)
  let isMissed := !location.functionAnchorFound && s.mode == .assembly && !c.signature.isEmpty
  let w := if isMissed then w.tell h (.showStatus (functionNotFound c.signature)) else w
  let w := w.tell h (.openArtifact path location)
  ((s.enter .succeeded).goTo (.ended (.shown ⟨s.id, s.mode, path, artifact, location⟩)), w)

/-- Looks for the function and the line in what the compiler has written, and shows them. -/
def locate (h : Host σ) (config : SessionConfig) (s : Session) (c : Capture)
    (artifact : String) (w : World σ) : Session × World σ :=
  let s := s.enter .locating
  if w.files.exists? artifact then
    match readable config s.mode artifact w with
    | (.error e, w) => (s.goTo (.failing (.ofIo e)), w)
    | (.ok path, w) =>
      match w.files.read path with
      | .error e => (s.goTo (.failing (.artifactUnreadable path e)), w)
      | .ok content => s.present h c artifact path content w
  else (s.goTo (.failing (.artifactMissing artifact)), w)

/-! ## Failing -/

/-- The title of the errors that are shown. -/
def errorTitle : String :=
  "Error"

/-- The session fails, and the user is told why. -/
def fail (h : Host σ) (s : Session) (e : SessionError) (w : World σ) : Session × World σ :=
  ((s.enter .failed).goTo (.ended (.failed e)), w.tell h (.showError e.message errorTitle))

/-! ## A session as a whole -/

/-- Takes a session to its next phase.  A session that looks in vain goes on waiting. -/
def step (h : Host σ) (config : SessionConfig) (s : Session) (w : World σ) :
    Session × World σ :=
  match s.phase with
  | .fresh => s.begin h config w
  | .captured c => s.claim config c w
  | .admitted c artifact permit => s.changeOptions h c artifact permit w
  | .configured work => s.compile h work w
  | .refused work => s.build h config work w
  | .waiting work wait => s.proceed config work wait w
  | .compiled work failure => s.restore h work failure w
  | .stopped work o => s.abort h work o w
  | .leaving permit exit => s.leave permit exit w
  | .locating c artifact => s.locate h config c artifact w
  | .failing e => s.fail h e w
  | .ended _ => (s, w)

/-- Lets a session take up to a number of steps, but none after it has looked in vain. -/
def advance (h : Host σ) (config : SessionConfig) :
    Nat → Session → World σ → Session × World σ
  | 0, s, w => (s, w)
  | n + 1, s, w =>
    let (next, w) := s.step h config w
    if s.wait?.isSome && next.wait?.isSome then (next, w) else advance h config n next w

/-- Lets a session go on as far as it can. -/
def poll (h : Host σ) (config : SessionConfig) (s : Session) (w : World σ) :
    Session × World σ :=
  s.advance h config s.stepsLeft w

/-- Ends a session that waits. -/
def cancel (h : Host σ) (config : SessionConfig) (s : Session) (w : World σ) :
    Session × World σ :=
  match s.phase with
  | .waiting work _ =>
    let (s, w) := s.interrupt work w
    s.poll h config w
  | _ => (s, w)

end Session

end BuildLens
