import FlowEngine.Nodes.Aggregate
import FlowEngine.Nodes.Batch
import FlowEngine.Nodes.Http
import FlowEngine.Nodes.Split
import FlowEngine.Nodes.Transform
import FlowEngine.Nodes.Workflow
import FlowEngine.Registry

/-!
# The standard nodes

All node types that come with the engine.

## Main definitions

* `standardNodes`: the node types in the order of their registration.
* `Registry.standard`: the registry that holds just these.
-/

namespace FlowEngine

/-- The node types that come with the engine. -/
def standardNodes : List Registration :=
  [⟨Split.definition, none, none, none, none⟩, ⟨Aggregate.definition, none, none, none, none⟩,
    ⟨Batch.definition, none, none, none, none⟩, ⟨CallNode.definition, none, none, none, none⟩,
    ⟨ReturnNode.definition, none, none, none, none⟩, ⟨HttpNode.definition, none, none, none, none⟩,
    ⟨DebugLog.definition, none, none, none, none⟩, ⟨JsonParse.definition, none, none, none, none⟩,
    ⟨JsonStringify.definition, none, none, none, none⟩]

/-- The registry of the standard nodes. -/
def Registry.standard : Registry := ⟨standardNodes.map Registration.entry⟩

end FlowEngine
