import FlowEngine.Cli.Arguments
import FlowEngine.Cli.Help
import FlowEngine.Converter
import FlowEngine.Platform.Call

/-!
# The commands of the program

What the program can be told to do on its command line, and how its arguments say so.

## Main definitions

* `Command`: what to do.
* `Command.specs`: what the commands take.
* `Command.read`: the command that arguments stand for, or what to say instead.
-/

namespace FlowEngine

/-- What the program is told to do. -/
inductive Command where
  /-- List the node types. -/
  | nodes
  /-- Run a pipeline from a file. -/
  | run (file input agent : String) (converter : Converter)
  /-- Split a sequence, and aggregate it again. -/
  | split (input : String) (path : Option String) (expectedCount : Option Nat)
  /-- Convert an envelope from a file. -/
  | convert (file : String) (converter : Converter)
  /-- Call a workflow. -/
  | call (target data : String) (mode : CallMode) (timeoutSeconds : Option Nat)
      (triggerUrl : Option String)
  /-- Write an example of a pipeline to a file. -/
  | init (file : String)

/-- What to say instead of doing something. -/
structure Advice where
  lines : List String
  /-- Whether it is an error. -/
  isError : Bool

namespace Command

/-- The name of the program. -/
def programName : String := "mel"

/-- A command, with how it is recognized among its arguments. -/
structure Entry where
  name : String
  spec : CommandSpec
  ofArguments : Arguments → Command

/-- A command of a name. -/
def entry (name help : String) (options : List Parameter) (argument : Option Parameter)
    (ofArguments : Arguments → Command) : Entry where
  name
  spec := { name := programName ++ " " ++ name, help, options, argument }
  ofArguments

/-- All commands. -/
def entries : List Entry :=
  [entry "nodes" "List available node types and their capabilities" [] none fun _ => .nodes,
    entry "run" "Run a pipeline file over a JSON input"
      [{ long := "file", letter := some 'f', value := some "FILE", kind := .path, required := true
         help := "Path to a JSON array of node configs" },
        { long := "input", letter := some 'i', value := some "INPUT", default := some "null"
          help := "Input payload as a JSON string" },
        { long := "agent", value := some "AGENT", default := some "cli"
          help := "Workflow id recorded in the trace" },
        { long := "pretty", help := "Pretty-print output envelopes" }] none
      fun a => .run ((a.value? "file").getD "") ((a.value? "input").getD "null")
        ((a.value? "agent").getD "cli") (if a.has "pretty" then .pretty else .compact),
    entry "split" "Split a JSON array, log every item and aggregate the results"
      [{ long := "input", letter := some 'i', value := some "INPUT", required := true
         help := "JSON array, or object holding one at --path" },
        { long := "path", letter := some 'p', value := some "PATH"
          help := "Dotted path to the array inside the input" },
        { long := "expected-count", value := some "EXPECTED_COUNT", kind := .natural
          help := "Emit the results of this many items per group" }] none
      fun a => .split ((a.value? "input").getD "") (a.value? "path")
        ((a.value? "expected-count").bind Text.word?),
    entry "convert" "Re-encode an envelope file with another converter"
      [{ long := "to", letter := some 't', value := some "TO", kind := .oneOf ["compact", "pretty"]
         default := some "pretty", help := "Output format" }]
      (some { long := "file", value := some "FILE", kind := .path, required := true
              positional := true, help := "Envelope file to read" })
      fun a => .convert ((a.value? "file").getD "")
        (if a.value? "to" = some "compact" then .compact else .pretty),
    entry "call" "Call another workflow through the dispatch layer"
      [{ long := "workflow", letter := some 'w', value := some "WORKFLOW", required := true
         help := "Target workflow id" },
        { long := "data", letter := some 'd', value := some "DATA", default := some "null"
          help := "Call payload as a JSON string" },
        { long := "no-wait", help := "Return immediately after dispatch" },
        { long := "timeout", letter := some 't', value := some "TIMEOUT", kind := .natural
          help := "Seconds to wait for the return" },
        { long := "trigger-url", value := some "TRIGGER_URL"
          help := "Dispatch base URL (overrides MEL_TRIGGER_URL)" }] none
      fun a => .call ((a.value? "workflow").getD "") ((a.value? "data").getD "null")
        (if a.has "no-wait" then .async else .sync) ((a.value? "timeout").bind Text.word?)
        (a.value? "trigger-url"),
    entry "init" "Create an example pipeline file"
      [{ long := "output", letter := some 'o', value := some "OUTPUT", kind := .path
         default := some "pipeline.json", help := "Output file path" }] none
      fun a => .init ((a.value? "output").getD "pipeline.json")]

/-- The command that gives help for the other ones. -/
def helpSpec : CommandSpec where
  name := programName ++ " help"
  help := "Print this message or the help of the given subcommand(s)"
  argument := some
    { long := "subcommand", value := some "COMMAND", positional := true, repeats := true
      help := "Print help for the subcommand(s)" }
  isPlain := true

/-- The word that asks for help. -/
def helpWord : String := "help"

/-- What all commands take, with their names. -/
def specs : List (String × CommandSpec) :=
  entries.map (fun e => (e.name, e.spec)) ++ [(helpWord, helpSpec)]

/-- What stands in front of a command. -/
def programSpec : CommandSpec where
  name := programName
  help := "Mel workflow engine CLI"
  commands := specs.map fun (name, spec) => ⟨name, spec.help, spec.longs⟩

/-- What to say to arguments of a command that cannot be read. -/
def advise (spec : CommandSpec) : UsageError → Advice
  | .help => ⟨spec.helpLines, false⟩
  | .nothing => ⟨spec.helpLines, true⟩
  | e => ⟨e.lines spec, true⟩

/-- The help for the command that words lead to. -/
def adviseHelp : List String → Advice
  | [] => advise programSpec .help
  | name :: words =>
    match specs.lookup name, words with
    | none, _ => advise programSpec (.unknownCommand name none)
    | some spec, [] => advise spec .help
    | some spec, word :: _ => advise spec (.unknownCommand word none)

/-- The command that arguments stand for. Options that every command has may stand in front of
it. -/
def read (words : List String) : Except Advice Command := do
  let (name, words) ← (programSpec.next words).mapError (advise programSpec)
  match entries.find? fun e => e.name == name with
  | none => throw (adviseHelp words)
  | some e => ((e.spec.read words).map e.ofArguments).mapError (advise e.spec)

end Command

end FlowEngine
