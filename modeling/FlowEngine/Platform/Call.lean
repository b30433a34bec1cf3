import FlowEngine.Envelope
import FlowEngine.Platform.Error
import FlowEngine.Text.Upper
import FlowEngine.Time.Duration

/-!
# Calls between workflows

The data of calls: what a node asks for, the request that starts the called workflow, and what comes
back.

## Main definitions

* `CallRequest`, `CallResponse`: a call as its caller sees it.
* `TriggerRequest`: what starts a called run, and `TriggerRequest.message`, its first message.
* `WorkflowReturn`: the result of a called workflow.
* `HttpRequest`, `HttpResponse`: requests to other systems.
-/

namespace FlowEngine

/-- Whether a caller waits for the called workflow. -/
inductive CallMode where
  | sync
  | async
  deriving DecidableEq, Repr

/-- The name of a mode. -/
def CallMode.name : CallMode → String
  | .sync => "sync"
  | .async => "async"

/-- How a call ended well. -/
inductive CallStatus where
  /-- The called workflow has been started and nothing more will come. -/
  | sent
  /-- The called workflow has answered. -/
  | completed
  deriving DecidableEq, Repr

/-- The name of a status. -/
def CallStatus.name : CallStatus → String
  | .sent => "sent"
  | .completed => "completed"

/-- The step that issues a call. -/
structure SourceContext where
  workflowId : String := ""
  runId : String := ""
  nodeId : Option String := none
  deriving DecidableEq

/-- A call of another workflow. -/
structure CallRequest where
  target : String
  data : Value
  mode : CallMode
  /-- How long to wait for an answer. None or zero stands for the default. -/
  timeoutSeconds : Option Nat
  source : SourceContext

/-- The outcome of a call that ended well. -/
structure CallResponse where
  callId : String
  status : CallStatus
  data : Option Value
  returnStatus : Option String
  duration : Duration

/-- The result of a called workflow. -/
structure WorkflowReturn where
  callId : String
  data : Value
  status : String
  returnedAt : Timestamp

/-- A result as a value, in the form in which it is kept for later. -/
def WorkflowReturn.toValue (r : WorkflowReturn) : Value :=
  .ofMembers [("call_id", .string r.callId), ("status", .string r.status), ("data", r.data),
    ("returned_at", .string (r.returnedAt.textWith "+00:00"))]

/-- Where a result went. -/
inductive Delivery where
  /-- To the waiting caller. -/
  | delivered
  /-- Into the data store, since nobody waited. -/
  | stored
  deriving DecidableEq, Repr

/-- The name of a delivery. -/
def Delivery.name : Delivery → String
  | .delivered => "delivered"
  | .stored => "stored"

/-- What starts a run of a called workflow. -/
structure TriggerRequest where
  callId : String
  sourceWorkflowId : String
  sourceRunId : String
  callData : Value
  callMode : CallMode
  calledAt : Timestamp

/-- Refuses a call without a target. -/
def CallRequest.check (r : CallRequest) : Except PlatformError Unit :=
  if r.target.isEmpty then .error (.invalidRequest "target workflow id is empty") else .ok ()

/-- What starts the called workflow. -/
def CallRequest.trigger (r : CallRequest) (callId : String) (now : Timestamp) : TriggerRequest where
  callId := callId
  sourceWorkflowId := r.source.workflowId
  sourceRunId := r.source.runId
  callData := r.data
  callMode := r.mode
  calledAt := now

/-- The response of a call that nothing more will come of. -/
def CallResponse.sent (callId : String) (duration : Duration) : CallResponse :=
  ⟨callId, .sent, none, none, duration⟩

/-- The error of a start that has taken longer than it may. -/
def PlatformError.dispatchTimedOut (target : String) (budget : Duration) : PlatformError :=
  .triggerFailed target ("dispatch timed out after " ++ budget.text)

/-! ### Metadata keys -/

/-- Metadata: the call that a run answers. -/
def callIdKey : String := "workflow_call_id"

/-- Metadata: the workflow of the caller. -/
def sourceWorkflowKey : String := "source_workflow_id"

/-- Metadata: the run of the caller. -/
def sourceRunKey : String := "source_run_id"

/-- The first message of a called run. It names the call, so that the run can answer it. -/
def TriggerRequest.message (r : TriggerRequest) (agentId runId : String) : Message Value :=
  (Message.new r.callData (.start agentId runId "trigger")).withMeta callIdKey r.callId
    |>.withMeta sourceWorkflowKey r.sourceWorkflowId
    |>.withMeta sourceRunKey r.sourceRunId

/-- A request to another system. -/
structure HttpRequest where
  method : String
  url : String
  headers : Dict String := {}
  body : Option Value := none
  timeout : Option Duration := none

/-- The answer of another system. -/
structure HttpResponse where
  status : UInt16
  headers : Dict String
  body : String
  duration : Duration

/-- Whether a character may stand in the name of a method. -/
def HttpRequest.isMethodChar (c : Char) : Bool :=
  c.isAlphanum || c ∈ "!#$%&'*+-.^_`|~".toList

/-- Whether the upper case of a request's method can be one. -/
def HttpRequest.hasValidMethod (r : HttpRequest) : Bool :=
  let method := (Text.upper r.method).toList
  !method.isEmpty && method.all isMethodChar

/-- Refuses a request whose method cannot be one. -/
def HttpRequest.check (r : HttpRequest) : Except PlatformError Unit :=
  if r.hasValidMethod then .ok ()
  else .error (.invalidRequest ("Unsupported method: " ++ r.method))

namespace Codec

/-- Modes by name. -/
def callMode : Codec CallMode :=
  choice ([CallMode.sync, .async].map fun m => (m.name, m)) CallMode.name

/-- Statuses by name. -/
def callStatus : Codec CallStatus :=
  choice ([CallStatus.sent, .completed].map fun s => (s.name, s)) CallStatus.name

/-- Calling steps as records. -/
def sourceContext : Codec SourceContext :=
  record "SourceContext"
    (.cons ⟨"workflow_id", text, none⟩ <| .cons ⟨"run_id", text, none⟩ <|
      .cons ⟨"node_id", optional text, none⟩ .nil)
    (fun (workflowId, runId, nodeId, _) => ⟨workflowId, runId, nodeId⟩)
    fun s => (s.workflowId, s.runId, s.nodeId, ())

/-- Results of workflows as records. -/
def workflowReturn : Codec WorkflowReturn :=
  record "WorkflowReturn"
    (.cons ⟨"call_id", text, none⟩ <| .cons ⟨"data", value, none⟩ <|
      .cons ⟨"status", text, none⟩ <| .cons ⟨"returned_at", timestamp, none⟩ .nil)
    (fun (callId, data, status, returnedAt, _) => ⟨callId, data, status, returnedAt⟩)
    fun r => (r.callId, r.data, r.status, r.returnedAt, ())

/-- Requests that start runs as records. The data of the call is plain JSON. -/
def triggerRequest : Codec TriggerRequest :=
  record "TriggerRequest"
    (.cons ⟨"callId", text, none⟩ <| .cons ⟨"sourceWorkflowId", text, none⟩ <|
      .cons ⟨"sourceRunId", text, none⟩ <| .cons ⟨"callData", plain, none⟩ <|
      .cons ⟨"callMode", callMode, none⟩ <| .cons ⟨"calledAt", timestamp, none⟩ .nil)
    (fun (callId, sourceWorkflowId, sourceRunId, callData, callMode, calledAt, _) =>
      ⟨callId, sourceWorkflowId, sourceRunId, callData, callMode, calledAt⟩)
    fun r => (r.callId, r.sourceWorkflowId, r.sourceRunId, r.callData, r.callMode, r.calledAt, ())

end Codec

end FlowEngine
