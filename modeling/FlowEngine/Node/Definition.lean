import FlowEngine.Node.Activity
import FlowEngine.Node.Config
import FlowEngine.Node.Meta
import FlowEngine.Payload

/-!
# Node definitions

What a node type does with an envelope. Nodes with typed payloads are bridged into the same form: a
payload of the wrong shape fails before the node is asked.

## Main definitions

* `NodeContext`: the run in which a node executes.
* `NodeOutput`: one envelope, several, or none yet.
* `NodeDefinition`: a node type.
* `TypedNode`: a node type with typed payloads, and `TypedNode.definition`, the node type it is.
-/

namespace FlowEngine

/-- The run in which a node executes. -/
structure NodeContext where
  agentId : String
  runId : String
  /-- Whether the run has been cancelled. -/
  cancelled : Bool := false

/-- The variables that the run sees. -/
def NodeContext.variableContext (context : NodeContext) : VariableContext :=
  .of context.agentId context.runId

/-- What a node makes of an envelope. -/
inductive NodeOutput where
  /-- One envelope goes on. -/
  | single (e : Envelope Value)
  /-- Every envelope goes on by itself. -/
  | many (es : List (Envelope Value))
  /-- There is nothing to go on with yet. -/
  | pending

/-- Answers with one envelope. -/
def Activity.emit (work : Issuing (Envelope Value)) : Activity (Except NodeError NodeOutput) := do
  return .ok (.single (← issue work))

/-- A node type. -/
structure NodeDefinition where
  info : NodeTypeMeta
  execute : NodeContext → NodeConfig → Envelope Value → Activity (Except NodeError NodeOutput)

/-- A node type that needs neither shared state nor the platform. It checks what it is given, and then
makes envelopes of it. -/
def NodeDefinition.simple (info : NodeTypeMeta)
    (run : NodeConfig → Envelope Value → Except NodeError (Issuing NodeOutput)) : NodeDefinition where
  info := info
  execute := fun _ node input => Activity.attempt (run node input)

/-- A node type with typed payloads. -/
structure TypedNode (ι ο : Type) [Payload ι] [Payload ο] where
  info : NodeTypeMeta
  execute : NodeContext → NodeConfig → Envelope ι → Activity (Except NodeError (Envelope ο))

namespace TypedNode

variable {ι ο : Type} [Payload ι] [Payload ο]

/-- The envelope that a typed node is given. -/
def accept (e : Envelope Value) : Except NodeError (Issuing (Envelope ι)) :=
  (e.data.decode ι).map fun data => e.derive data e.trace

/-- The envelope that goes on from a typed node. -/
def release (e : Envelope ο) : Issuing (Envelope Value) := e.derive (Value.encode e.data) e.trace

/-- The node type that decodes payloads for a typed node and encodes what it gives back. -/
def definition (node : TypedNode ι ο) : NodeDefinition where
  info := node.info
  execute := fun context config input => do
    match ← Activity.attempt (accept input) with
    | .error error => return .error error
    | .ok accepted =>
      match ← node.execute context config accepted with
      | .error error => return .error error
      | .ok output => Activity.emit (release output)

end TypedNode

end FlowEngine
