/-
Reading the words of a command line.

The words are read from the left.  An option may have its value in the same word or in the
next one, and the value is judged only when something else follows or the level ends.  Of
several mistakes the one that is met first counts, so a word that is not expected wins over
a value that was not judged yet.  A word `--` ends the options: what follows is taken as it
is.
-/
import BuildLens.Command.Grammar
import BuildLens.Environment

namespace BuildLens

/-- What was read of a level. -/
structure Reading where
  /-- The values of options. -/
  values : List (CommandOption × String) := []
  /-- How often more output was asked for. -/
  verbosity : Nat := 0
  /-- The option that was met last, and its value if there is one, while it is not judged. -/
  pending : Option (CommandOption × Option String) := none

/-- The largest verbosity; asking for more changes nothing. -/
def maxVerbosity : Nat :=
  255

namespace Reading

/-- The value of an option. -/
def value? (r : Reading) (name : String) : Option String :=
  (r.values.find? fun v => v.1.name == name).map Prod.snd

/-- Whether an option has a value. -/
def has (r : Reading) (name : String) : Bool :=
  (r.value? name).isSome

/-- Whether an option is met for the second time. -/
def meets (r : Reading) (name : String) : Bool :=
  r.has name || r.pending.any fun p => p.1.name == name

/-- Whether the next word is the value of an option. -/
def awaitsValue (r : Reading) : Bool :=
  r.pending.any fun p => p.2.isNone

/-! ## Judging values -/

/-- An option gets a value. -/
def accept (r : Reading) (o : CommandOption) (v : String) : Except UsageError Reading :=
  if r.has o.name then .error .repeatedOption
  else
    match o.kind.objection? v with
    | some e => .error e
    | none => .ok { r with values := r.values ++ [(o, v)] }

/-- The option that was met last is judged. -/
def settle (r : Reading) : Except UsageError Reading :=
  match r.pending with
  | none => .ok r
  | some (_, none) => .error .invalidValue
  | some (o, some v) => { r with pending := none }.accept o v

/-- An option is met together with its value. -/
def take (r : Reading) (o : CommandOption) (v : String) : Except UsageError Reading := do
  (← r.settle).accept o v

/-- An option is met, and its value is to follow. -/
def await (r : Reading) (o : CommandOption) : Except UsageError Reading := do
  pure { ← r.settle with pending := some (o, none) }

/-- A switch is met. -/
def turn (r : Reading) (s : Switch) : Except UsageError Reading := do
  let r ← r.settle
  match s with
  | .verbose => pure { r with verbosity := min (r.verbosity + 1) maxVerbosity }
  | .help => .error .helpRequested
  | .version => .error .versionRequested

/-! ## Words -/

/-- A word that is no option is met.  A command works on one file. -/
def operand (l : Level) (r : Reading) (word : String) : Except UsageError Reading :=
  match l.operand with
  | none => .error (l.refusal word)
  | some o =>
    if r.meets o.name then .error (l.refusal word)
    else do pure { ← r.settle with pending := some (o, some word) }

/-- A word with a long name is met. -/
def long (l : Level) (r : Reading) (name : String) (value : Option String) :
    Except UsageError Reading :=
  match l.named? name, value with
  | none, _ => .error .unknownArgument
  | some (.switch s), none => r.turn s
  | some (.switch _), some _ => .error .unwantedValue
  | some (.option o), none => r.await o
  | some (.option o), some v => r.take o v

/-- A word of letters is met.  What follows the letter of an option is its value. -/
def letters (l : Level) : List Char → Reading → Except UsageError Reading
  | [], r => .ok r
  | c :: cs, r =>
    match l.lettered? c, cs with
    | none, _ => .error .unknownArgument
    | some (.switch s), _ => do letters l cs (← r.turn s)
    | some (.option o), [] => r.await o
    | some (.option o), '=' :: v => r.take o (String.ofList v)
    | some (.option o), v => r.take o (String.ofList v)

/-- The value in a word with a long name: what follows the first `=`. -/
def valueIn (cs : List Char) : Option String :=
  match cs.dropWhile (· != '=') with
  | [] => none
  | _ :: v => some (String.ofList v)

/-- A word is met, before the end of the options. -/
def word (l : Level) (r : Reading) (w : String) : Except UsageError Reading :=
  match w.toList with
  | '-' :: '-' :: cs => r.long l (String.ofList (cs.takeWhile (· != '='))) (valueIn cs)
  | '-' :: c :: cs => letters l (c :: cs) r
  | _ =>
    match r.pending with
    | some (o, none) => .ok { r with pending := some (o, some w) }
    | _ => r.operand l w

/-- The word that ends the options. -/
def endOfOptions : String :=
  "--"

/-- Reads a level: what was read, and the name of a command with the words behind it.
`plain` tells whether the options have ended. -/
def words (l : Level) (plain : Bool) (r : Reading) :
    List String → Except UsageError (Reading × Option (String × List String))
  | [] => .ok (r, none)
  | w :: ws =>
    if plain then do words l true (← r.operand l w) ws
    else if !r.awaitsValue && l.commands.contains w then .ok (r, some (w, ws))
    else if w = endOfOptions then words l true r ws
    else do words l false (← r.word l w) ws

/-! ## The end of a level -/

/-- The value that the environment gives to an option. -/
def variableValue (env : Environment) (o : CommandOption) : Option String :=
  o.variableName.bind env

/-- Options without a value get that of the environment. -/
def fillIn (env : Environment) (r : Reading) :
    List CommandOption → Except UsageError Reading
  | [] => .ok r
  | o :: os =>
    if r.has o.name then r.fillIn env os
    else
      match variableValue env o with
      | none => r.fillIn env os
      | some v => do (← r.accept o v).fillIn env os

end Reading

end BuildLens
