import FlowEngine.Cli.Parameter
import FlowEngine.Text.Terminal

/-!
# Arguments that cannot be read

## Main definitions

* `Hint`: what may have been meant instead.
* `UsageError`: why the arguments of a command cannot be read.
* `UsageError.lines`: the whole message.
-/

namespace FlowEngine

/-- What may have been meant instead of an argument. -/
inductive Hint where
  /-- A similar option of the command. -/
  | similarOption (long : String)
  /-- A similar option of a command that follows. -/
  | optionOf (command long : String)
  | similarValue (value : String)
  /-- At least one similar command. -/
  | similarCommands (names : List String)
  /-- Not an option but a value. -/
  | asValue (argument : String)
  /-- A command, without the two hyphens in front of it. -/
  | asCommand (name : String)
  deriving DecidableEq

/-- The message of a hint. -/
def Hint.message : Hint → String
  | .similarOption long => "a similar argument exists: '--" ++ long ++ "'"
  | .optionOf command long => "'" ++ command ++ " --" ++ long ++ "' exists"
  | .similarValue value => "a similar value exists: '" ++ value ++ "'"
  | .similarCommands [name] => "a similar subcommand exists: '" ++ name ++ "'"
  | .similarCommands names =>
    "some similar subcommands exist: " ++
      String.intercalate ", " (names.map fun name => "'" ++ name ++ "'")
  | .asValue argument =>
    "to pass '" ++ argument ++ "' as a value, use '-- " ++ argument ++ "'"
  | .asCommand name =>
    "subcommand '" ++ name ++ "' exists; to use it, remove the '--' before it"

/-- Why the arguments of a command cannot be read. The options that were `given` are named where
the usage shows them. -/
inductive UsageError where
  | unexpected (argument : String) (hint : Option Hint) (given : List String)
  | needsValue (p : Parameter)
  | needsNoValue (p : Parameter) (value : String) (given : List String)
  | badChoice (p : Parameter) (value : String) (hint : Option Hint)
  | badNumber (p : Parameter) (value reason : String)
  | repeated (p : Parameter)
  /-- Parameters that are needed were not given. -/
  | missing (parameters : List Parameter) (given : List String)
  | unknownCommand (name : String) (hint : Option Hint)
  /-- A command has to follow. -/
  | missingCommand
  /-- Nothing was given at all. -/
  | nothing
  /-- Help was asked for. -/
  | help
  deriving DecidableEq

namespace UsageError

/-- What is wrong, in a line. -/
def headline (c : CommandSpec) : UsageError → String
  | .unexpected argument _ _ => "unexpected argument '" ++ argument ++ "' found"
  | .needsValue p => "a value is required for '" ++ p.usage ++ "' but none was supplied"
  | .needsNoValue p value _ =>
    "unexpected value '" ++ value ++ "' for '" ++ p.usage ++ "' found; no more were expected"
  | .badChoice p value _ => "invalid value '" ++ value ++ "' for '" ++ p.usage ++ "'"
  | .badNumber p value reason =>
    "invalid value '" ++ value ++ "' for '" ++ p.usage ++ "': " ++ reason
  | .repeated p => "the argument '" ++ p.usage ++ "' cannot be used multiple times"
  | .missing .. => "the following required arguments were not provided:"
  | .unknownCommand name _ => "unrecognized subcommand '" ++ name ++ "'"
  | .missingCommand => "'" ++ c.name ++ "' requires a subcommand but one was not provided"
  | .nothing | .help => ""

/-- A list that a message names, on a line of its own. -/
def listLine (title : String) (names : List String) : List String :=
  if names.isEmpty then []
  else ["  [" ++ title ++ ": " ++ String.intercalate ", " names ++ "]"]

/-- What the headline speaks of. -/
def details (c : CommandSpec) : UsageError → List String
  | .needsValue p | .badChoice p _ _ => listLine "possible values" p.kind.choices
  | .missing parameters _ => parameters.map fun p => "  " ++ p.usage
  | .missingCommand => listLine "subcommands" (c.commands.map Subcommand.name)
  | _ => []

/-- What may have been meant instead. -/
def hint? : UsageError → Option Hint
  | .unexpected _ hint _ | .badChoice _ _ hint | .unknownCommand _ hint => hint
  | _ => none

/-- The usage that goes with an error, if one does. -/
def usage? (c : CommandSpec) : UsageError → Option String
  | .unexpected _ _ [] => some c.usage
  | .unexpected _ _ given | .needsNoValue _ _ given | .missing _ given => some (c.usageWith given)
  | .repeated _ | .unknownCommand .. | .missingCommand => some c.usage
  | _ => none

/-- The parts of the message of an error. -/
def parts (c : CommandSpec) (e : UsageError) : List String :=
  [["error: " ++ e.headline c], e.details c,
    e.hint?.elim [] fun hint => ["", "  tip: " ++ hint.message],
    (e.usage? c).elim [] fun usage => ["", usage],
    if c.isPlain then [] else ["", "For more information, try '--help'."]].flatten

/-- The whole message of an error. What it quotes from the arguments cannot control the terminal. -/
def lines (c : CommandSpec) (e : UsageError) : List String :=
  (Text.withoutControls (String.intercalate "\n" (e.parts c))).splitOn "\n"

end UsageError

end FlowEngine
