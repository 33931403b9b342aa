/-
Build events: what a host tells about the builds it runs.

In JSON an event is a record whose fields depend on its kind.  As an object it names its
kind in the field `kind`; as an array it starts with its kind.  Because the fields are only
known once the kind is, the whole value is read first.  So all of it has to be readable, even
fields that are ignored: it must not be nested too deeply, it must not contain a number
beyond the range of a double, and all its strings must be texts.
-/
import BuildLens.Json.Printer
import BuildLens.Json.Reader
import BuildLens.Json.Record
import BuildLens.Time.Instant

namespace BuildLens

/-- What a build comprises. -/
inductive BuildScope where
  /-- The whole solution. -/
  | solution
  /-- A choice of projects. -/
  | batch
  /-- One project. -/
  | project
  deriving DecidableEq, Repr

namespace BuildScope

/-- The name of a scope. -/
def name : BuildScope → String
  | .solution => "solution"
  | .batch => "batch"
  | .project => "project"

/-- The scope of a name. -/
def ofName (s : String) : Option BuildScope :=
  [BuildScope.solution, .batch, .project].find? fun v => v.name == s

/-- The scope that a JSON value stands for. -/
def ofJson : Json → Option BuildScope :=
  Json.named Json.isNull ofName

/-- A scope in JSON. -/
def toJson (v : BuildScope) : Json :=
  .text v.name

/-- The scope that is assumed where none is given. -/
def default : BuildScope :=
  .solution

end BuildScope

/-- What a build does. -/
inductive BuildAction where
  /-- It builds what has changed. -/
  | build
  /-- It builds everything. -/
  | rebuildAll
  /-- It removes what was built. -/
  | clean
  /-- It deploys what was built. -/
  | deploy
  deriving DecidableEq, Repr

namespace BuildAction

/-- The name of an action. -/
def name : BuildAction → String
  | .build => "build"
  | .rebuildAll => "rebuild_all"
  | .clean => "clean"
  | .deploy => "deploy"

/-- The action of a name. -/
def ofName (s : String) : Option BuildAction :=
  [BuildAction.build, .rebuildAll, .clean, .deploy].find? fun v => v.name == s

/-- The action that a JSON value stands for. -/
def ofJson : Json → Option BuildAction :=
  Json.named Json.isNull ofName

/-- An action in JSON. -/
def toJson (v : BuildAction) : Json :=
  .text v.name

/-- The action that is assumed where none is given. -/
def default : BuildAction :=
  .build

end BuildAction

/-- A project in the plan of a build. -/
structure PlannedProject where
  /-- The name of the project. -/
  project : String
  /-- Whether the build comprises the project. -/
  shouldBuild : Bool := true
  deriving DecidableEq, Repr

namespace PlannedProject

/-- The planned project that a JSON value stands for. -/
def ofJson (j : Json) : Option PlannedProject := do
  let r ← Json.record ["project", "should_build"] j
  let project ← r.required "project" Json.text?
  let shouldBuild ← r.withDefault "should_build" Json.bool? true
  pure ⟨project, shouldBuild⟩

/-- A planned project in JSON. -/
def toJson (p : PlannedProject) : Json :=
  .object [("project", .text p.project), ("should_build", .bool p.shouldBuild)]

end PlannedProject

/-- A step of a build. -/
inductive BuildEvent where
  /-- A build starts, with a plan. -/
  | buildBegin (scope : BuildScope) (action : BuildAction) (contexts : List PlannedProject)
      (time : Instant)
  /-- A build ends. -/
  | buildDone (scope : BuildScope) (action : BuildAction) (time : Instant)
  /-- The build of a project starts. -/
  | projectBegin (project projectConfig platform solutionConfig : String) (time : Instant)
  /-- The build of a project ends. -/
  | projectDone (project projectConfig platform solutionConfig : String) (success : Bool)
      (time : Instant)
  deriving DecidableEq

namespace BuildEvent

/-- The start of a build of the whole solution. -/
def solutionBegin (contexts : List PlannedProject) (now : Instant) : BuildEvent :=
  .buildBegin .solution .build contexts now

/-- The end of a build of the whole solution. -/
def solutionDone (now : Instant) : BuildEvent :=
  .buildDone .solution .build now

/-- The end of the build of a project in an unnamed configuration. -/
def ofProjectDone (project : String) (success : Bool) (now : Instant) : BuildEvent :=
  .projectDone project "" "" "" success now

/-- When an event happened. -/
def time : BuildEvent → Instant
  | .buildBegin _ _ _ t => t
  | .buildDone _ _ t => t
  | .projectBegin _ _ _ _ t => t
  | .projectDone _ _ _ _ _ t => t

/-- The project that an event is about. -/
def project? : BuildEvent → Option String
  | .projectBegin p _ _ _ _ => some p
  | .projectDone p _ _ _ _ _ => some p
  | _ => none

/-- How the build of a project ended, if that is what the event tells. -/
def outcomeOf (project : String) : BuildEvent → Option Bool
  | .projectDone p _ _ _ success _ => if p = project then some success else none
  | _ => none

/-- Whether the event tells that the build of a project has ended. -/
def isProjectDoneFor (e : BuildEvent) (project : String) : Bool :=
  (e.outcomeOf project).isSome

/-! ## JSON -/

/-- The kinds of events. -/
inductive Kind where
  /-- A build starts. -/
  | buildBegin
  /-- A build ends. -/
  | buildDone
  /-- The build of a project starts. -/
  | projectBegin
  /-- The build of a project ends. -/
  | projectDone
  deriving DecidableEq, Repr

/-- The name of a kind. -/
def Kind.name : Kind → String
  | .buildBegin => "build_begin"
  | .buildDone => "build_done"
  | .projectBegin => "project_begin"
  | .projectDone => "project_done"

/-- The kind of a name. -/
def Kind.ofName (s : String) : Option Kind :=
  [Kind.buildBegin, .buildDone, .projectBegin, .projectDone].find? fun v => v.name == s

/-- The components of the events of a kind, in the order of their declaration. -/
def Kind.components : Kind → List String
  | .buildBegin => ["scope", "action", "contexts", "at"]
  | .buildDone => ["scope", "action", "at"]
  | .projectBegin => ["project", "project_config", "platform", "solution_config", "at"]
  | .projectDone =>
    ["project", "project_config", "platform", "solution_config", "success", "at"]

/-- The scope inside an event. -/
def readScope : Json → Option BuildScope :=
  Json.named Json.isNullOrEmpty BuildScope.ofName

/-- The action inside an event. -/
def readAction : Json → Option BuildAction :=
  Json.named Json.isNullOrEmpty BuildAction.ofName

/-- The instant inside an event. -/
def readTime (j : Json) : Option Instant :=
  j.text?.bind fun s => Instant.read s.toList

/-- The event of a kind with given components; an event without a time happens now. -/
def ofRecord (now : Instant) (kind : Kind) (r : Json.Record) : Option BuildEvent := do
  match kind with
  | .buildBegin =>
    let scope ← r.required "scope" readScope
    let action ← r.withDefault "action" readAction .default
    let contexts ← r.withDefault "contexts" (Json.listOf PlannedProject.ofJson) []
    let time ← r.withDefault "at" readTime now
    pure (.buildBegin scope action contexts time)
  | .buildDone =>
    let scope ← r.required "scope" readScope
    let action ← r.withDefault "action" readAction .default
    let time ← r.withDefault "at" readTime now
    pure (.buildDone scope action time)
  | .projectBegin =>
    let project ← r.required "project" Json.text?
    let projectConfig ← r.withDefault "project_config" Json.text? ""
    let platform ← r.withDefault "platform" Json.text? ""
    let solutionConfig ← r.withDefault "solution_config" Json.text? ""
    let time ← r.withDefault "at" readTime now
    pure (.projectBegin project projectConfig platform solutionConfig time)
  | .projectDone =>
    let project ← r.required "project" Json.text?
    let projectConfig ← r.withDefault "project_config" Json.text? ""
    let platform ← r.withDefault "platform" Json.text? ""
    let solutionConfig ← r.withDefault "solution_config" Json.text? ""
    let success ← r.required "success" Json.bool?
    let time ← r.withDefault "at" readTime now
    pure (.projectDone project projectConfig platform solutionConfig success time)

/-- The kind of an event and its other components. -/
def open? : Json → Option (Kind × Json)
  | .object fields => do
    match fields.filter fun f => f.1 == "kind" with
    | [(_, j)] =>
      let kind ← j.text?.bind Kind.ofName
      pure (kind, .object (fields.filter fun f => f.1 != "kind"))
    | _ => none
  | .array (j :: items) => do
    let kind ← j.text?.bind Kind.ofName
    pure (kind, .array items)
  | _ => none

/-- The deepest nesting of an event. -/
def maxDepth : Nat :=
  127

/-- Whether all of a value can be read. -/
def isReadable (j : Json) : Bool :=
  j.depth ≤ maxDepth && j.all fun v => v.isInRange && !v.isUnreadable

/-- The event that a JSON value stands for; an event without a time happens now. -/
def ofJson (now : Instant) (j : Json) : Option BuildEvent := do
  if !isReadable j then none
  else
    let (kind, rest) ← open? j
    let r ← Json.record kind.components rest
    ofRecord now kind r

/-- The kind of an event. -/
def kind : BuildEvent → Kind
  | .buildBegin .. => .buildBegin
  | .buildDone .. => .buildDone
  | .projectBegin .. => .projectBegin
  | .projectDone .. => .projectDone

/-- An instant in JSON. -/
def timeToJson (t : Instant) : Json :=
  .text (String.ofList t.write)

/-- The components of an event in JSON. -/
def fields : BuildEvent → List (String × Json)
  | .buildBegin scope action contexts time =>
    [("scope", scope.toJson), ("action", action.toJson),
      ("contexts", .array (contexts.map PlannedProject.toJson)), ("at", timeToJson time)]
  | .buildDone scope action time =>
    [("scope", scope.toJson), ("action", action.toJson), ("at", timeToJson time)]
  | .projectBegin project projectConfig platform solutionConfig time =>
    [("project", .text project), ("project_config", .text projectConfig),
      ("platform", .text platform), ("solution_config", .text solutionConfig),
      ("at", timeToJson time)]
  | .projectDone project projectConfig platform solutionConfig success time =>
    [("project", .text project), ("project_config", .text projectConfig),
      ("platform", .text platform), ("solution_config", .text solutionConfig),
      ("success", .bool success), ("at", timeToJson time)]

/-- An event in JSON. -/
def toJson (e : BuildEvent) : Json :=
  .object (("kind", .text e.kind.name) :: e.fields)

end BuildEvent

end BuildLens
