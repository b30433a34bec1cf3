import FlowEngine.Nodes.Sequence

/-!
# Aggregation

Envelopes are collected until their group is complete, and then merged into one. How many belong to
a group is configured, or else said by the metadata of the first one; without either, one is enough.
Payloads are merged in the order of arrival.

## Main definitions

* `Aggregate.expected`: how many envelopes complete a group.
* `Aggregate.merge`: the envelope of a complete group.
* `Aggregate.collect`, `Aggregate.definition`: the node.
-/

namespace FlowEngine

namespace Aggregate

/-- The group that an envelope belongs to at a node. -/
def key (nodeId : String) (trace : Trace) : GroupKey := ⟨trace.agentId, trace.runId, nodeId⟩

/-- How many envelopes complete a group, given its first one. -/
def expected (configured : Option Nat) (first : Option (Message Value)) : Nat :=
  let announced := ((first.bind fun m => m.metadata.get? MetaKey.splitTotal).bind Text.word?)
  max 1 ((configured.or announced).getD 1)

/-- Adds what another message carries to a merged one. Entries of the other one win. -/
def absorb (merged other : Message Value) : Message Value :=
  { merged with
    metadata := merged.metadata.extend other.metadata
    vars := merged.vars.extend other.vars
    binary := merged.binary.extend other.binary
    errors := merged.errors ++ other.errors }

/-- Adds what the other items of a group carry to a message that goes on from the first one, and lists
the payloads of all. -/
def gather (first : Message Value) (rest : List (Message Value)) (merged : Message Value) :
    Message Value :=
  let payload := Value.array ((first :: rest).map Message.data)
  { rest.foldl absorb merged with data := payload }.withMeta
    MetaKey.aggregateCount (toString (rest.length + 1))

/-- The envelope of a complete group that starts with `first`. -/
def merge (nodeId : String) (first : Envelope Value) (rest : List (Envelope Value)) :
    Issuing (Envelope Value) := do
  let e ← first.forward nodeId (Value.array [])
  return e.amend (gather first.toMessage (rest.map Envelope.toMessage))

/-- Puts a copy of an envelope into its group. If that completes the group, or if incomplete groups are
to be emitted, the group is merged and closed. -/
def collect (node : NodeConfig) (input : Envelope Value) (configured : Option Nat)
    (partialResults : Bool) (state : Workspace) : NodeOutput × Workspace :=
  let k := key node.id input.trace
  let (copy, supply) := input.copy state.supply
  let groups := state.groups.add k copy
  let items := groups.items k
  if items.length < expected configured (items.head?.map Envelope.toMessage) ∧ ¬ partialResults then
    (.pending, { state with supply, groups })
  else
    let groups := groups.close k
    match items with
    | [] => (.pending, { state with supply, groups })
    | first :: rest =>
      let (e, supply) := merge node.id first rest supply
      (.single e, { state with supply, groups })

/-- Collects envelopes as a node is configured. -/
def run (node : NodeConfig) (input : Envelope Value) (state : Workspace) :
    Except NodeError NodeOutput × Workspace :=
  match node.natural? "expected_count" with
  | .error e => (.error e, state)
  | .ok configured =>
    let (output, state) :=
      collect node input configured ((node.flag? "partial_results").getD false) state
    (.ok output, state)

/-- The node that merges envelopes. -/
def definition : NodeDefinition where
  info :=
    { typeId := "flow.aggregate"
      label := "Aggregate"
      category := "flow"
      description := "Merge split items back into one envelope"
      parameters :=
        [.optional "expected_count"
            "Items per group; defaults to the split_total of the first item" .null,
          .optional "partial_results" "Emit whatever has arrived on every item" (.bool false)] }
  execute := fun _ node input => Activity.use (run node input)

end Aggregate

end FlowEngine
