import FlowEngine.Cli.Command
import FlowEngine.Platform.Offline
import FlowEngine.Engine

/-!
# What commands do

Every command is a function of what surrounds the program to a transcript: the lines that it prints,
the file that it writes, and how it fails.

## Main definitions

* `Surroundings`: the environment, the files, and the rest of the world.
* `Line`, `Failure`, `Transcript`: what comes of a command.
* `Command.execute`: what a command does.
* `perform`: what the program does.
-/

namespace FlowEngine

/-- What surrounds the program. -/
structure Surroundings where
  environment : String → Option String
  /-- The content of a file, or why it cannot be read. -/
  content : String → Except String ByteArray
  /-- Whether a file can be written, or why not. -/
  writable : String → Except String Unit
  supply : Supply

/-- A line of output. -/
inductive Line where
  | text (s : String)
  /-- How long the run has taken. -/
  | duration

/-- A line as it is printed, given how long the run has taken. -/
def Line.render (elapsed : Duration) : Line → String
  | .text s => s
  | .duration => "   Duration: " ++ toString elapsed.millis ++ "ms"

/-- How the program fails. -/
inductive Failure where
  /-- Its arguments make no sense. -/
  | usage (lines : List String)
  /-- Its command fails. -/
  | command (message : String) (cause : Option String)

/-- A failure as it is printed. -/
def Failure.lines : Failure → List String
  | .usage lines => lines
  | .command message cause =>
    ("Error: " ++ message) ::
      cause.elim [] fun cause => "" :: "Caused by:" :: (cause.splitOn "\n").map ("    " ++ ·)

/-- The status with which the program ends after a failure. -/
def Failure.status : Failure → Nat
  | .usage _ => 2
  | .command .. => 1

/-- What comes of a command. -/
structure Transcript where
  lines : List Line := []
  /-- The file that is written, with its content. -/
  written : Option (String × String) := none
  failure : Option Failure := none

namespace Transcript

/-- The status with which the program ends. -/
def exitCode (t : Transcript) : Nat := t.failure.elim 0 Failure.status

/-- What is printed on standard error. -/
def errorLines (t : Transcript) : List String := t.failure.elim [] Failure.lines

/-- Lines of text. -/
def ofLines (lines : List String) : Transcript := { lines := lines.map .text }

/-- Puts lines of text in front. -/
def after (t : Transcript) (lines : List String) : Transcript :=
  { t with lines := lines.map .text ++ t.lines }

/-- A failure. -/
def fail (message : String) (cause : Option String := none) : Transcript :=
  { failure := some (.command message cause) }

end Transcript

namespace Command

/-- Goes on with what succeeds. -/
def orFail {α : Type} (r : Except Transcript α) (next : α → Transcript) : Transcript :=
  match r with
  | .ok a => next a
  | .error t => t

/-- The content of a file. -/
def contentOf (s : Surroundings) (file : String) : Except Transcript ByteArray :=
  (s.content file).mapError fun reason => .fail ("Failed to read " ++ file) (some reason)

/-- The content of a file of text. -/
def textOf (s : Surroundings) (file : String) : Except Transcript String := do
  match String.fromUTF8? (← contentOf s file) with
  | some text => return text
  | none => throw (.fail ("Failed to read " ++ file) (some "stream did not contain valid UTF-8"))

/-- A payload from the command line. -/
def payload (text : String) : Except Transcript Value :=
  match Json.parse (.ofString text) with
  | .ok json => .ok (.ofJson json)
  | .error fault => .error (.fail "Input is not valid JSON" (some fault.message))

/-- The engine that commands use. -/
def engine (s : Surroundings) : Engine where
  settings := { platform := .ofEnvironment s.environment }
  workspace := { supply := s.supply }

/-- Runs a pipeline on a payload, under a fresh name. -/
def runOnce (s : Surroundings) (agentId : String) (pipeline : List NodeConfig) (payload : Value) :
    RunResult :=
  let r := engine s
  let (uuid, supply) := r.workspace.supply.fresh
  let runId := uuid.text
  let (input, r) := { r with workspace.supply := supply }.issue
    (.new payload (.start agentId runId "cli"))
  (r.run (r.context agentId runId) (Offline.reply s.supply.now) pipeline input
    (Exchange.new r.settings.platform)).1

/-- What is said about the outputs of a run. -/
def outputLines (converter : Converter) (outputs : List (Envelope Value)) : List String :=
  if outputs.isEmpty then []
  else ["", "📤 Outputs:"] ++ outputs.map converter.marshal

/-- What is said about a run. -/
def report (converter : Converter) (r : RunResult) : Transcript where
  lines :=
    ["", "📊 Execution Summary:", "   Node executions: " ++ toString r.executions,
      "   Outputs: " ++ toString r.outputs.length, "   Waiting: " ++ toString r.pending,
      "   Failures: " ++ toString r.failures.length].map .text ++ [.duration] ++
    ((r.failures.map fun f => "  ❌ " ++ f.message) ++ outputLines converter r.outputs).map .text
  failure :=
    if r.isSuccess then none
    else some (.command (toString r.failures.length ++ " pipeline branch(es) failed") none)

/-- What is said about a node type. -/
def nodeLines (r : Registration) : List String :=
  let info := r.definition.info
  ["  • " ++ info.typeId ++ " (" ++ info.category ++ ") [" ++ r.capabilities.text ++ "]"] ++
    (if info.description.isEmpty then [] else ["    " ++ info.description]) ++
    info.parameters.map fun p =>
      "      - " ++ p.name ++ " (" ++ (if p.required then "required" else "optional") ++ "): " ++
        p.description

/-- Lists the node types. -/
def listNodes : Transcript :=
  .ofLines (["📦 Available Node Types:", ""] ++ standardNodes.flatMap nodeLines)

/-- Runs a pipeline from a file. -/
def runFile (s : Surroundings) (file input agent : String) (converter : Converter) : Transcript :=
  let outcome := orFail (textOf s file) fun text =>
    match Codec.pipeline.parse (.ofString text) with
    | .error fault => .fail fault.message
    | .ok pipeline =>
      (orFail (payload input) fun payload =>
        report converter (runOnce s agent pipeline payload)).after
        ["   Nodes: " ++ toString pipeline.length, ""]
  outcome.after ["🚀 Loading pipeline from: " ++ file]

/-- A pipeline that splits a sequence, logs its items and aggregates them. -/
def splitPipeline (path : Option String) (expectedCount : Option Nat) : List NodeConfig :=
  let split : NodeConfig := { id := "split", nodeType := "flow.split" }
  let log : NodeConfig := { id := "log", nodeType := "debug.log" }
  let aggregate : NodeConfig := { id := "aggregate", nodeType := "flow.aggregate" }
  let aggregate := aggregate.withConfig "partial_results" (.bool false)
  [path.elim split fun p => split.withConfig "path" (.string p), log,
    expectedCount.elim aggregate fun n => aggregate.withConfig "expected_count" (.ofNat n)]

/-- Splits a sequence and aggregates it again. -/
def splitInput (s : Surroundings) (input : String) (path : Option String)
    (expectedCount : Option Nat) : Transcript :=
  orFail (payload input) fun payload =>
    report .pretty (runOnce s "cli" (splitPipeline path expectedCount) payload)

/-- Converts an envelope. -/
def convertFile (s : Surroundings) (file : String) (converter : Converter) : Transcript :=
  orFail (contentOf s file) fun bytes =>
    match Converter.compact.unmarshal (.ofBytes bytes) with
    | .ok e => .ofLines [converter.marshal e]
    | .error e =>
      .fail e.message (match e with | .decode fault => some fault.message | _ => none)

/-- What is said about a call that ended well. -/
def responseLines (r : CallResponse) : List String :=
  match r.status with
  | .sent => ["✨ Dispatched call " ++ r.callId]
  | .completed =>
    ["✨ Call " ++ r.callId ++ " returned '" ++ r.returnStatus.getD "" ++ "' in " ++
        toString r.duration.millis ++ "ms",
      (r.data.getD .null).toJson.render .indented]

/-- Calls a workflow. -/
def callWorkflow (s : Surroundings) (target data : String) (mode : CallMode)
    (timeoutSeconds : Option Nat) (triggerUrl : Option String) : Transcript :=
  let settings := PlatformSettings.ofEnvironment s.environment
  let settings := match triggerUrl with
    | some url => { settings with triggerUrl := withoutTrailingSlashes url }
    | none => settings
  orFail (payload data) fun data =>
    let source : SourceContext := ⟨"cli", s.supply.fresh.1.text, none⟩
    let outcome : Transcript := match Offline.call settings ⟨target, data, mode, timeoutSeconds, source⟩ with
      | .ok response => .ofLines (responseLines response)
      | .error e => .fail e.message
    outcome.after ["📨 Calling workflow: " ++ target]

/-- A pipeline to start from. -/
def examplePipeline (supply : Supply) : List NodeConfig :=
  let (a, supply) := supply.fresh
  let (b, supply) := supply.fresh
  let (c, _) := supply.fresh
  let node (id : Uuid) (nodeType name : String) : NodeConfig :=
    { id := id.text, nodeType, name := some name }
  [(node a "flow.split" "Split Items").withConfig "path" (.string "items"),
    (node b "debug.log" "Log Item").withConfig "message" (.string "item"),
    node c "flow.aggregate" "Collect Items"]

/-- Writes a pipeline to start from. -/
def writeExample (s : Surroundings) (file : String) : Transcript :=
  match s.writable file with
  | .error reason => .fail reason
  | .ok () =>
    { lines :=
        ["✨ Created example pipeline: " ++ file, "", "Run it with:",
          "  mel run --file " ++ file ++ " --input '\x7b\"items\": [1, 2, 3]\x7d'"].map .text
      written := some (file, Codec.pipeline.render .indented (examplePipeline s.supply)) }

/-- The file that a command reads. -/
def inputFile? : Command → Option String
  | .run file .. | .convert file _ => some file
  | _ => none

/-- What a command does. -/
def execute (s : Surroundings) : Command → Transcript
  | .nodes => listNodes
  | .run file input agent converter => runFile s file input agent converter
  | .split input path expectedCount => splitInput s input path expectedCount
  | .convert file converter => convertFile s file converter
  | .call target data mode timeoutSeconds triggerUrl =>
    callWorkflow s target data mode timeoutSeconds triggerUrl
  | .init file => writeExample s file

end Command

/-- What is said instead of doing something. -/
def Advice.transcript (a : Advice) : Transcript :=
  if a.isError then { failure := some (.usage a.lines) } else .ofLines a.lines

/-- What the program does when it is started with arguments. -/
def perform (s : Surroundings) (words : List String) : Transcript :=
  match Command.read words with
  | .ok command => command.execute s
  | .error advice => advice.transcript

end FlowEngine
