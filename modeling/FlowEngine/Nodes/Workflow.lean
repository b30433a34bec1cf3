import FlowEngine.Nodes.Sequence

/-!
# Calling workflows and answering them

One node hands its payload to another workflow through the platform, and waits for the result or
not. The other one answers the call that started its run: the call is known from the metadata that
the run's first envelope carries, unless it is configured.

## Main definitions

* `CallNode.request`, `CallNode.conclude`, `CallNode.definition`: calling.
* `ReturnNode.callId`, `ReturnNode.definition`: answering.
-/

namespace FlowEngine

namespace CallNode

/-- The configured mode. -/
def mode (node : NodeConfig) : Except NodeError CallMode :=
  match (node.text? "mode").getD "sync" with
  | "sync" => .ok .sync
  | "async" => .ok .async
  | other => .error (.configuration ("mode must be 'sync' or 'async', got '" ++ other ++ "'"))

/-- The call that a node makes. -/
def request (context : NodeContext) (node : NodeConfig) (input : Message Value) :
    Except NodeError CallRequest := do
  match node.nonemptyText? "workflow_id" with
  | none => throw (.configuration "Missing config: workflow_id")
  | some target =>
    let mode ← mode node
    let timeoutSeconds ← node.natural? "timeout_seconds"
    return { target, mode, timeoutSeconds
             data := input.data
             source := ⟨context.agentId, context.runId, some node.id⟩ }

/-- The envelope after a call that ended well. -/
def conclude (node : NodeConfig) (input : Envelope Value) (response : CallResponse) :
    Issuing (Envelope Value) := do
  let after ← match response.status with
    | .completed => do
      let e ← input.forward node.id (response.data.getD .null)
      pure (e.withMeta MetaKey.returnStatus (response.returnStatus.getD ""))
    | .sent =>
      input.forward node.id
        (Value.ofMembers [("call_id", .string response.callId), ("status", .string "sent")])
  return after.withMeta MetaKey.outboundCallId response.callId

/-- Makes the call. -/
def execute (context : NodeContext) (node : NodeConfig) (input : Envelope Value) :
    Activity (Except NodeError NodeOutput) :=
  match request context node input.toMessage with
  | .error e => pure (.error e)
  | .ok call => do
    match ← Activity.ask (.call call) with
    | .ok response => Activity.emit (conclude node input response)
    | .error e => return .error e.toNodeError

/-- The node that calls workflows. -/
def definition : NodeDefinition where
  info :=
    { typeId := "workflow.call"
      label := "Call Workflow"
      category := "workflow"
      description := "Run another workflow with this payload"
      parameters :=
        [.mandatory "workflow_id" "Workflow to call",
          .optional "mode" "sync or async" (.string "sync"),
          .optional "timeout_seconds" "Sync call timeout; platform default when unset" .null] }
  execute := execute

end CallNode

namespace ReturnNode

/-- The call that a node answers. -/
def callId (node : NodeConfig) (input : Message Value) : Except NodeError String :=
  match (node.nonemptyText? "call_id").or (input.metadata.get? callIdKey) with
  | some id => .ok id
  | none => .error (.missingInput callIdKey)

/-- The envelope after the answer. -/
def conclude (node : NodeConfig) (input : Envelope Value) (delivery : Delivery) :
    Issuing (Envelope Value) := do
  let e ← input.forward node.id input.data
  return e.withMeta MetaKey.returnDelivery delivery.name

/-- Answers the call. -/
def execute (node : NodeConfig) (input : Envelope Value) :
    Activity (Except NodeError NodeOutput) :=
  match callId node input.toMessage with
  | .error e => pure (.error e)
  | .ok id => do
    let status := (node.text? "status").getD "success"
    match ← Activity.ask (.answer id input.data status) with
    | .ok delivery => Activity.emit (conclude node input delivery)
    | .error e => return .error e.toNodeError

/-- The node that answers calls. -/
def definition : NodeDefinition where
  info :=
    { typeId := "workflow.return"
      label := "Return to Caller"
      category := "workflow"
      description := "Send this payload back to the calling workflow"
      parameters :=
        [.optional "call_id" "Call to answer; defaults to the workflow_call_id meta" (.string ""),
          .optional "status" "Status reported to the caller" (.string "success")] }
  execute := fun _ node input => execute node input

end ReturnNode

end FlowEngine
