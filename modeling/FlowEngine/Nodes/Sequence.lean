import FlowEngine.Node.Definition
import FlowEngine.Value.Path

/-!
# Sequences

The sequence that a node works on: the payload, or the value at a path inside it.

## Main definitions

* `NodeConfig.sequence`: the items of the sequence.
* `MetaKey`: the entries that flow nodes write to the metadata.
-/

namespace FlowEngine

namespace MetaKey

/-- The position of an item in the sequence it was split from. -/
def splitIndex : String := "split_index"

/-- The length of the sequence an item was split from. -/
def splitTotal : String := "split_total"

/-- The position of a window. -/
def batchIndex : String := "batch_index"

/-- The number of windows. -/
def totalBatches : String := "total_batches"

/-- The greatest length of a window. -/
def batchSize : String := "batch_size"

/-- The number of merged envelopes. -/
def aggregateCount : String := "aggregate_count"

/-- The call that a node has made. -/
def outboundCallId : String := "outbound_call_id"

/-- The status that the called workflow has returned. -/
def returnStatus : String := "return_status"

/-- Where the answer to the caller went. -/
def returnDelivery : String := "return_delivery"

end MetaKey

/-- A configured text, unless it is empty. -/
def NodeConfig.nonemptyText? (node : NodeConfig) (key : String) : Option String :=
  (node.text? key).filter fun s => !s.isEmpty

/-- The items of the sequence that a node works on. -/
def NodeConfig.sequence (node : NodeConfig) (payload : Value) : Except NodeError (List Value) :=
  let items (field : String) (value : Value) : Except NodeError (List Value) :=
    match value.asArray? with
    | some items => .ok items
    | none => .error (.invalidInputType field "array" value.dataType.name)
  match node.nonemptyText? "path" with
  | none => items "data" payload
  | some path =>
    match payload.at? path with
    | some value => items path value
    | none => .error (.missingInput path)

end FlowEngine
