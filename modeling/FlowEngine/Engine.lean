import FlowEngine.Converter
import FlowEngine.Run
import FlowEngine.Nodes.Standard
import FlowEngine.Platform.Settings

/-!
# Engines

One instance of the engine: its node types, its converters, and the state that its nodes share.

## Main definitions

* `Engine`: an instance.
* `Engine.context`, `finishRun`, `shutDown`: the life of runs.
* `Engine.run`: a run whose requests are answered at once.
-/

namespace FlowEngine

/-- An instance of the engine. -/
structure Engine where
  settings : EngineSettings := {}
  registry : Registry := .standard
  converters : ConverterSet := .standard
  workspace : Workspace
  /-- Whether every run is cancelled. -/
  isShutDown : Bool := false

namespace Engine

/-- The context of a run. -/
def context (r : Engine) (agentId runId : String) : NodeContext :=
  { agentId, runId, cancelled := r.isShutDown }

/-- Forgets the variables of a run that is over. -/
def finishRun (r : Engine) (runId : String) : Engine :=
  { r with workspace.variableStore := r.workspace.variableStore.clearRun runId }

/-- Cancels every run, present or future. -/
def shutDown (r : Engine) : Engine := { r with isShutDown := true }

/-- Makes an envelope of a message. -/
def issue (r : Engine) (m : Message Value) : Envelope Value × Engine :=
  let (e, supply) := m.seal r.workspace.supply
  (e, { r with workspace.supply := supply })

/-- Executes a node whose requests are answered at once by `reply`. -/
def execute {σ : Type} (r : Engine) (context : NodeContext)
    (reply : (request : Request) → σ → request.Reply × σ) (node : NodeConfig)
    (input : Envelope Value) (state : Workspace × σ) :
    Except NodeFailure NodeOutput × Workspace × σ :=
  (r.registry.execute context node input state.1).settle reply state.2

/-- A run of a pipeline whose requests are answered at once by `reply`. -/
def run {σ : Type} (r : Engine) (context : NodeContext)
    (reply : (request : Request) → σ → request.Reply × σ) (pipeline : List NodeConfig)
    (input : Envelope Value) (s : σ) : RunResult × Engine × σ :=
  let state : RunState pipeline.length (Envelope Value) := .start input
  let (result, workspace, s) :=
    state.runReady r.settings.maxParallel
      (fun stage => r.execute context reply pipeline[stage]) (r.workspace, s)
  (result, { r with workspace }, s)

end Engine

end FlowEngine
