import FlowEngine.Node.Definition

/-!
# Extended contracts

What a node type can offer beyond executing: answering as a language model, remembering a
conversation, being called as a tool, and starting runs by itself.

## Main definitions

* `ModelContract`, `MemoryContract`, `ToolContract`, `TriggerContract`.
-/

namespace FlowEngine

/-- A language model. -/
structure ModelContract where
  complete : NodeContext → ModelRequest → Activity (Except NodeError ModelResponse)

/-- A memory of conversations, each under the name of a session. -/
structure MemoryContract where
  remember : NodeContext → String → Value → Activity (Except NodeError Unit)
  /-- The latest entries, latest first and at most as many as asked for. -/
  latest : NodeContext → String → Nat → Activity (Except NodeError (List Value))

/-- A tool that an agent can call. -/
structure ToolContract where
  spec : ToolSpec
  call : NodeContext → Value → Activity (Except NodeError Value)

/-- A source of runs. -/
structure TriggerContract where
  kind : String

end FlowEngine
