import FlowEngine.Nodes.Sequence

/-!
# Batches

A sequence is cut into windows of a fixed size, of which the last may be shorter. A node emits the
window with a given index, or all of them at once.

## Main definitions

* `Batch.count`, `Batch.slice`: the number of windows, and the items of one.
* `Batch.run`, `Batch.definition`: the node.
-/

namespace FlowEngine

namespace Batch

/-- The number of windows of a size that a sequence of a length is cut into. -/
def count (size length : Nat) : Nat := (length + size - 1) / size

/-- The items of a window. -/
def slice {α : Type} (size index : Nat) (items : List α) : List α :=
  (items.drop (index * size)).take size

/-- The envelope of a window. -/
def window (size total : Nat) (items : List Value) (input : Envelope Value) (index : Nat)
    (trace : Trace) : Issuing (Envelope Value) := do
  let e ← input.derive (Value.array (slice size index items)) trace
  return e.withMeta MetaKey.batchIndex (toString index)
    |>.withMeta MetaKey.totalBatches (toString total)
    |>.withMeta MetaKey.batchSize (toString size)

/-- The configured size of windows. -/
def size (node : NodeConfig) : Except NodeError Nat := do
  match ← node.natural? "batch_size" with
  | none => throw (.configuration "Missing config: batch_size")
  | some 0 => throw (.configuration "batch_size must be greater than 0")
  | some n => return n

/-- Emits the window with the configured index, or all windows. -/
def run (node : NodeConfig) (input : Envelope Value) : Except NodeError (Issuing NodeOutput) := do
  let size ← size node
  let items ← node.sequence input.data
  if items.isEmpty then
    throw (.emptyInput ("node " ++ node.id ++ " received no items to batch"))
  let total := count size items.length
  let next := input.trace.next node.id
  if (node.flag? "emit_all").getD false then
    return .many <$> Issuing.each (fun index =>
      window size total items input index (next.child node.id index)) (List.range total)
  else
    let index := (← node.natural? "batch_index").getD 0
    if index < total then return .single <$> window size total items input index next
    else throw (.configuration ("batch_index " ++ toString index ++
      " out of range, input has " ++ toString total ++ " batches"))

/-- The node that cuts sequences into windows. -/
def definition : NodeDefinition :=
  .simple
    { typeId := "flow.batch"
      label := "Batch"
      category := "flow"
      description := "Split a sequence into fixed-size windows"
      parameters :=
        [.mandatory "batch_size" "Items per window",
          .optional "batch_index" "Window to emit" (.ofNat 0),
          .optional "emit_all" "Emit every window" (.bool false),
          .optional "path" "Dotted path to the sequence inside the payload" (.string "")] }
    run

end Batch

end FlowEngine
