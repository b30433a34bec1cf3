import FlowEngine.Text.Natural

/-!
# What commands take

Commands take options, each with a long name and perhaps a letter, and at most one parameter by
position. What a command takes is data, from which arguments are read and help is written.

## Main definitions

* `ValueKind`, `Parameter`, `CommandSpec`: what a command takes.
* `Parameter.usage`, `CommandSpec.usage`, `CommandSpec.usageWith`: how it is shown.
-/

namespace FlowEngine

/-- The values that a parameter admits. -/
inductive ValueKind where
  | text
  /-- The name of a file, which is not empty. -/
  | path
  /-- A natural number of 64 bits. -/
  | natural
  | oneOf (choices : List String)
  deriving DecidableEq

/-- The values to choose from, if it is so. -/
def ValueKind.choices : ValueKind → List String
  | .oneOf choices => choices
  | _ => []

/-- Why a text is no natural number of 64 bits. -/
def numberFault? (text : String) : Option String :=
  let digits := Text.withoutPlus text.toList
  if text.isEmpty then some "cannot parse integer from empty string"
  else if digits.isEmpty || !digits.all Char.isDigit then some "invalid digit found in string"
  else if (Text.bounded? UInt64.size digits).isNone then
    some "number too large to fit in target type"
  else none

/-- A parameter of a command: an option, or what is given by position. -/
structure Parameter where
  /-- The long name, by which an option is given. -/
  long : String
  letter : Option Char := none
  /-- What its value is called. An option without a value is a flag. -/
  value : Option String := none
  help : String
  default : Option String := none
  required : Bool := false
  kind : ValueKind := .text
  /-- Whether it can be given several times. -/
  repeats : Bool := false
  /-- Whether it is given by its position, without its name. -/
  positional : Bool := false
  deriving DecidableEq

namespace Parameter

/-- The parameter as usages show it. -/
def usage (p : Parameter) : String :=
  let value := p.value.getD ""
  let shown :=
    if p.positional then if p.required then "<" ++ value ++ ">" else "[" ++ value ++ "]"
    else "--" ++ p.long ++ if p.value.isSome then " <" ++ value ++ ">" else ""
  shown ++ if p.repeats then "..." else ""

/-- The option that every command has for help. -/
def helpFlag : Parameter := { long := "help", letter := some 'h', help := "Print help" }

/-- The option that every command has for more detailed messages. -/
def verboseFlag : Parameter where
  long := "verbose"
  letter := some 'v'
  help := "Increase log verbosity (-v debug, -vv trace). RUST_LOG takes precedence"
  repeats := true

end Parameter

/-- A command that belongs to a command, as the latter knows it. -/
structure Subcommand where
  name : String
  help : String
  /-- The long names of its options. -/
  longs : List String

/-- A command. -/
structure CommandSpec where
  /-- The words that call it. -/
  name : String
  help : String
  /-- The options of its own. -/
  options : List Parameter := []
  /-- The parameter by position. -/
  argument : Option Parameter := none
  /-- The commands that belong to it, one of which has to follow. -/
  commands : List Subcommand := []
  /-- Whether it also has the options that every command has, or no options at all. -/
  isPlain : Bool := false

namespace CommandSpec

/-- All options of a command. -/
def allOptions (c : CommandSpec) : List Parameter :=
  if c.isPlain then c.options else c.options ++ [.verboseFlag, .helpFlag]

/-- The long names of all options. -/
def longs (c : CommandSpec) : List String := c.allOptions.map Parameter.long

/-- The option with a long name. -/
def option? (c : CommandSpec) (long : String) : Option Parameter :=
  c.allOptions.find? fun p => p.long == long

/-- The option with a letter. -/
def optionOfLetter? (c : CommandSpec) (letter : Char) : Option Parameter :=
  c.allOptions.find? fun p => p.letter == some letter

/-- The options that a command needs. -/
def requiredOptions (c : CommandSpec) : List Parameter := c.options.filter Parameter.required

/-- Whether there are options that a command does not need, apart from help. -/
def hasOptionals (c : CommandSpec) : Bool :=
  c.allOptions.any fun p => !p.required && p.long != Parameter.helpFlag.long

/-- What follows the options of a command. -/
def tailUsage (c : CommandSpec) : List String :=
  c.argument.toList.map Parameter.usage ++ if c.commands.isEmpty then [] else ["<COMMAND>"]

/-- A command with what follows it. -/
def usageLine (c : CommandSpec) (parts : List String) : String :=
  String.intercalate " " (("Usage: " ++ c.name) :: parts ++ c.tailUsage)

/-- How a command is called. -/
def usage (c : CommandSpec) : String :=
  c.usageLine ((if c.hasOptionals then ["[OPTIONS]"] else []) ++
    c.requiredOptions.map Parameter.usage)

/-- How a command is called with given options, besides those that it needs. -/
def usageWith (c : CommandSpec) (given : List String) : String :=
  let needed := c.requiredOptions
  let options := given.eraseDups.filterMap c.option?
  c.usageLine ((needed ++ options.filter fun p => !needed.contains p).map Parameter.usage)

end CommandSpec

end FlowEngine
