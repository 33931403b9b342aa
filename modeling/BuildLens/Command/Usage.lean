/-
What is wrong with a command line.
-/
namespace BuildLens

/-- Why a command line is not carried out. -/
inductive UsageError where
  /-- A word is neither an option nor expected. -/
  | unknownArgument
  /-- An option has no value, or one that it does not admit. -/
  | invalidValue
  /-- A number cannot be read. -/
  | unreadableNumber
  /-- A switch has a value. -/
  | unwantedValue
  /-- An option is given twice. -/
  | repeatedOption
  /-- The file that a command works on is missing. -/
  | missingOperand
  /-- There is no such command. -/
  | unknownCommand
  /-- There is no command. -/
  | missingCommand
  /-- The command line is empty. -/
  | nothingGiven
  /-- The user asks for help. -/
  | helpRequested
  /-- The user asks for the version. -/
  | versionRequested
  deriving DecidableEq, Repr

/-- The text of what is wrong with a command line. -/
def UsageError.message : UsageError → String
  | .unknownArgument => "unexpected argument found"
  | .invalidValue => "a value is missing or is not admitted"
  | .unreadableNumber => "a number cannot be read"
  | .unwantedValue => "unexpected value for an option without one"
  | .repeatedOption => "an option cannot be used multiple times"
  | .missingOperand => "a required file was not provided"
  | .unknownCommand => "unrecognized command"
  | .missingCommand => "a command is required but was not provided"
  | .nothingGiven => "usage: devutils diagnostics|locate|replay|show FILE [OPTIONS]"
  | .helpRequested => "usage: devutils diagnostics|locate|replay|show FILE [OPTIONS]"
  | .versionRequested => "devutils 0.1.0"

end BuildLens
