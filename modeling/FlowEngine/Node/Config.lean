import FlowEngine.Envelope

/-!
# Configured nodes

A workflow is a chain of configured nodes: each has an identity, the type of node it is, and
configuration values.

## Main definitions

* `NodeConfig`: a configured node.
* `NodeConfig.requireConfig`, `text?`, `flag?`, `natural?`: its configuration values.
* `Codec.nodeConfig`, `Codec.pipeline`: the representation of nodes and of chains of them.
-/

namespace FlowEngine

/-- A node in a workflow. -/
structure NodeConfig where
  id : String
  nodeType : String
  name : Option String := none
  config : Dict Value := {}

namespace NodeConfig

/-- The node with another configuration value. -/
def withConfig (node : NodeConfig) (key : String) (value : Value) : NodeConfig :=
  { node with config := node.config.insert key value }

/-- A configuration value that has to be there. -/
def requireConfig (node : NodeConfig) (key : String) : Except NodeError Value :=
  match node.config.get? key with
  | some value => .ok value
  | none => .error (.configuration ("Missing config: " ++ key))

/-- A configuration value, if it is a text. -/
def text? (node : NodeConfig) (key : String) : Option String :=
  (node.config.get? key).bind Value.asString?

/-- A configuration value, if it is a boolean. -/
def flag? (node : NodeConfig) (key : String) : Option Bool :=
  (node.config.get? key).bind Value.asBool?

/-- A natural number. It may be left out or null, and is an error if it is anything else. -/
def natural? (node : NodeConfig) (key : String) : Except NodeError (Option Nat) :=
  match node.config.get? key with
  | none | some .null => .ok none
  | some value =>
    match value.asNatural? with
    | some n => .ok (some n)
    | none => .error (.configuration
        ("'" ++ key ++ "' must be a non-negative integer, got " ++ value.dataType.name))

end NodeConfig

namespace Codec

/-- Configured nodes as records. -/
def nodeConfig : Codec NodeConfig :=
  record "NodeConfig"
    (.cons ⟨"id", text, none⟩ <| .cons ⟨"node_type", text, none⟩ <|
      .cons ⟨"name", optional text, none⟩ <| .cons ⟨"config", dict value, some {}⟩ .nil)
    (fun (id, nodeType, name, config, _) => ⟨id, nodeType, name, config⟩)
    fun node => (node.id, node.nodeType, node.name, node.config, ())

/-- Chains of configured nodes. -/
def pipeline : Codec (List NodeConfig) := list nodeConfig

end Codec

end FlowEngine
