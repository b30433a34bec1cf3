import FlowEngine.Cli.UsageError
import FlowEngine.Text.Similarity

/-!
# Arguments of commands

Arguments are read word by word. An option waits for its value, which is the next word unless that
looks like an option, and a value is looked at only when the next parameter comes: so of two
mistakes the one that is reported need not be the first.

## Main definitions

* `Arguments`: what a command was given.
* `Word`: what a word looks like.
* `Progress`: how far the reading of arguments has come.
* `CommandSpec.read`, `CommandSpec.next`: reading arguments.
-/

namespace FlowEngine

/-- What a command was given: values by the long names of their parameters, in the order in which
they were given. -/
abbrev Arguments := List (String × String)

namespace Arguments

/-- The value of a parameter. -/
def value? (a : Arguments) (long : String) : Option String := a.lookup long

/-- Whether a parameter was given. -/
def has (a : Arguments) (long : String) : Bool := (a.value? long).isSome

/-- The parameters that were given. -/
def names (a : Arguments) : List String := a.map Prod.fst

/-- What was given apart from a parameter. -/
def without (a : Arguments) (long : String) : Arguments := a.filter fun x => x.1 != long

end Arguments

/-- Why a parameter does not admit a value. -/
def Parameter.fault? (p : Parameter) (value : String) : Option UsageError :=
  match p.kind with
  | .text => none
  | .path => if value.isEmpty then some (.needsValue p) else none
  | .natural => (numberFault? value).map (.badNumber p value)
  | .oneOf choices =>
    if choices.contains value then none
    else if value.isEmpty then some (.needsValue p)
    else some (.badChoice p value ((Text.mostSimilar? value choices).map .similarValue))

/-- Adds a parameter to what was given, with its value if it has come. What was given changes even
if there is a fault. -/
def Arguments.add (a : Arguments) (p : Parameter) (value : Option String) :
    Arguments × Option UsageError :=
  if p.value.isSome ∧ value.isNone then (a, some (.needsValue p))
  else if p.long = Parameter.helpFlag.long then (a, some .help)
  else if a.has p.long ∧ ¬ p.repeats then (a.without p.long, some (.repeated p))
  else
    let value := value.getD ""
    (a.without p.long ++ [(p.long, value)], p.fault? value)

/-- How far the reading of arguments has come. -/
structure Progress where
  given : Arguments := []
  /-- The latest parameter that takes a value, with its value if it has come, before it is added to
  what was given. -/
  pending : Option (Parameter × Option String) := none

namespace Progress

/-- Adds the pending parameter to what was given. -/
def settle (s : Progress) : Progress × Option UsageError :=
  match s.pending with
  | none => (s, none)
  | some (p, value) =>
    let (given, fault) := s.given.add p value
    (⟨given, none⟩, fault)

/-- What was given once the pending parameter is added, even if there is a fault. -/
def settled (s : Progress) : Arguments := s.settle.1.given

/-- Adds the pending parameter to what was given, and refuses a fault. -/
def settle? (s : Progress) : Except UsageError Progress :=
  match s.settle with
  | (s, none) => .ok s
  | (_, some fault) => .error fault

/-- Adds a parameter that needs nothing more. -/
def add (s : Progress) (p : Parameter) (value : Option String) : Except UsageError Progress := do
  let s ← s.settle?
  match s.given.add p value with
  | (given, none) => return { s with given }
  | (_, some fault) => throw fault

/-- Makes a parameter the pending one. -/
def await (s : Progress) (p : Parameter) (value : Option String) : Except UsageError Progress := do
  let s ← s.settle?
  return { s with pending := some (p, value) }

/-- Adds an option with the value that is attached to it; without one the option waits for it. -/
def addOption (s : Progress) (p : Parameter) (attached : Option String) :
    Except UsageError Progress :=
  if attached.isSome then s.add p attached else s.await p none

/-- The option that waits for its value. -/
def waiting? (s : Progress) : Option Parameter :=
  match s.pending with
  | some (p, none) => some p
  | _ => none

/-- Whether a parameter has come. -/
def has (s : Progress) (p : Parameter) : Bool :=
  s.given.has p.long || s.pending.any fun x => x.1.long == p.long

end Progress

/-- What a word looks like. -/
inductive Word where
  /-- Two hyphens: all words that follow are plain. -/
  | escape
  /-- The long name of an option, perhaps with a value. -/
  | long (name : String) (value : Option String)
  /-- The letters of options. -/
  | letters (letters : List Char)
  | plain

/-- What a word looks like. -/
def Word.ofText (word : String) : Word :=
  match word.toList with
  | ['-', '-'] => .escape
  | '-' :: '-' :: cs =>
    .long (String.ofList (cs.takeWhile (· != '=')))
      (match cs.dropWhile (· != '=') with
        | [] => none
        | _ :: value => some (String.ofList value))
  | '-' :: c :: cs => .letters (c :: cs)
  | _ => .plain

/-- Whether a word looks like an option. -/
def Word.isOption : Word → Bool
  | .long .. | .letters _ => true
  | .escape | .plain => false

namespace CommandSpec

/-- The command that follows, whose option may have been meant by a long name. It is named among
the words that come next. -/
def optionBelow? (c : CommandSpec) (name : String) (words : List String) : Option Hint :=
  let found := c.commands.filterMap fun s =>
    if words.contains s.name then
      (Text.mostSimilar? name s.longs).map fun long => (words.idxOf s.name, Hint.optionOf s.name long)
    else none
  (found.mergeSort fun x y => x.1 ≤ y.1).head?.map Prod.snd

/-- The fault of a long name that the command does not have. -/
def unknownLong (c : CommandSpec) (name : String) (words : List String) (given : Arguments) :
    UsageError :=
  let argument := "--" ++ name
  match Text.mostSimilar? name c.longs with
  | some long => .unexpected argument (some (.similarOption long)) (given.names ++ [long])
  | none =>
    let asValue := if c.argument.isSome then some (.asValue argument) else none
    .unexpected argument ((c.optionBelow? name words).or asValue) given.names

/-- The fault of a letter that the command does not have. -/
def unknownLetter (c : CommandSpec) (letter : Char) : UsageError :=
  let argument := "-" ++ String.singleton letter
  .unexpected argument (if c.argument.isSome then some (.asValue argument) else none) []

/-- The fault of a word for which the command has no parameter by position. -/
def unexpectedWord (c : CommandSpec) (escaped : Bool) (word : String) : UsageError :=
  let names := c.commands.map Subcommand.name
  if escaped && names.contains word then .unexpected word (some (.asCommand word)) []
  else if names.isEmpty then
    let asValue := !escaped && c.argument.isSome && (Word.ofText word).isOption
    .unexpected word (if asValue then some (.asValue word) else none) []
  else
    match Text.similarTo word names with
    | [] => .unknownCommand word none
    | similar => .unknownCommand word (some (.similarCommands similar))

/-- Reads the long name of an option, perhaps with a value. The words that follow serve to guess
what was meant. -/
def readLong (c : CommandSpec) (name : String) (value : Option String) (words : List String)
    (s : Progress) : Except UsageError Progress :=
  match c.option? name with
  | none => .error (c.unknownLong name words s.settled)
  | some p =>
    if p.value.isSome then s.addOption p value
    else match value with
      | none => s.add p none
      | some value => .error (.needsNoValue p value (s.given.names ++ [p.long]))

/-- Reads the letters of options that stand together. The rest of the letters after an option with a
value is that value, perhaps after an equals sign. -/
def readLetters (c : CommandSpec) : List Char → Progress → Except UsageError Progress
  | [], s => .ok s
  | letter :: letters, s =>
    match c.optionOfLetter? letter with
    | none => .error (c.unknownLetter letter)
    | some p =>
      if p.value.isSome then
        s.addOption p (match letters with
          | [] => none
          | '=' :: value => some (String.ofList value)
          | value => some (String.ofList value))
      else do c.readLetters letters (← s.add p none)

/-- Reads a word by position. -/
def readPositional (c : CommandSpec) (escaped : Bool) (word : String) (s : Progress) :
    Except UsageError Progress :=
  match c.argument with
  | none => .error (c.unexpectedWord escaped word)
  | some p =>
    if s.has p then .error (c.unexpectedWord escaped word) else s.await p (some word)

/-- Reads words, `escaped` or not, up to a command that belongs to the command. Returns that command
with the words that follow it. -/
def readWords (c : CommandSpec) :
    Bool → List String → Progress → Except UsageError (Progress × Option (String × List String))
  | _, [], s => .ok (s, none)
  | true, word :: words, s => do c.readWords true words (← c.readPositional true word s)
  | false, word :: words, s =>
    if s.waiting?.isNone && (c.commands.map Subcommand.name).contains word then
      .ok (s, some (word, words))
    else
      match Word.ofText word with
      | .escape => c.readWords true words s
      | .long name value => do c.readWords false words (← c.readLong name value words s)
      | .letters letters => do c.readWords false words (← c.readLetters letters s)
      | .plain =>
        match s.waiting? with
        | some p => c.readWords false words { s with pending := some (p, some word) }
        | none => do c.readWords false words (← c.readPositional false word s)

/-- Refuses what lacks something that a command needs. -/
def checkComplete (c : CommandSpec) (a : Arguments) : Except UsageError Unit :=
  let needed := c.requiredOptions ++ c.argument.toList.filter Parameter.required
  let missing := needed.filter fun p => !a.has p.long
  if missing.isEmpty then .ok () else .error (.missing missing a.names)

/-- Reads the arguments of a command to which no others belong. -/
def read (c : CommandSpec) (words : List String) : Except UsageError Arguments := do
  let (s, _) ← c.readWords false words {}
  let s ← s.settle?
  c.checkComplete s.given
  return s.given

/-- Reads the arguments of a command up to the command that has to follow, and returns that command
with its words. -/
def next (c : CommandSpec) (words : List String) : Except UsageError (String × List String) := do
  match ← c.readWords false words {} with
  | (_, some next) => return next
  | (s, none) =>
    let s ← s.settle?
    throw (if s.given.isEmpty then .nothing else .missingCommand)

end CommandSpec

end FlowEngine
