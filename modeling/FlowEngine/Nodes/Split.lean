import FlowEngine.Nodes.Sequence

/-!
# Splitting

A sequence becomes one envelope per item. Each of them says which item it holds and how many there
are, so that they can be merged again further down.

## Main definitions

* `Split.children`: the envelopes of all items.
* `Split.run`, `Split.definition`: the node.
-/

namespace FlowEngine

namespace Split

/-- The envelope of an item. -/
def child (nodeId : String) (input : Envelope Value) (total index : Nat) (item : Value) :
    Issuing (Envelope Value) := do
  let e ← input.derive item ((input.trace.next nodeId).child nodeId index)
  return (e.withMeta MetaKey.splitIndex (toString index)).withMeta MetaKey.splitTotal (toString total)

/-- The envelopes of all items. -/
def children (nodeId : String) (input : Envelope Value) (items : List Value) :
    Issuing (List (Envelope Value)) :=
  Issuing.each (fun (item, index) => child nodeId input items.length index item) items.zipIdx

/-- The envelope that stands for an empty sequence. -/
def placeholder (nodeId : String) (input : Envelope Value) : Issuing (Envelope Value) := do
  let e ← input.forward nodeId (Value.array [])
  return e.withMeta MetaKey.splitTotal "0"

/-- Splits the sequence of an envelope. An empty one is an error, unless it is to be preserved. -/
def run (node : NodeConfig) (input : Envelope Value) : Except NodeError (Issuing NodeOutput) := do
  let items ← node.sequence input.data
  if items.isEmpty then
    if (node.flag? "preserve_empty").getD false then
      return .single <$> placeholder node.id input
    else throw (.emptyInput ("node " ++ node.id ++ " received no items to split"))
  else return .many <$> children node.id input items

/-- The node that splits sequences. -/
def definition : NodeDefinition :=
  .simple
    { typeId := "flow.split"
      label := "Split"
      category := "flow"
      description := "Emit one envelope per element of a sequence"
      parameters :=
        [.optional "path" "Dotted path to the sequence inside the payload" (.string ""),
          .optional "preserve_empty" "Pass an empty sequence through instead of failing"
            (.bool false)] }
    run

end Split

end FlowEngine
