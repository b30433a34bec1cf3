import FlowEngine.NodeError

/-!
# Errors of the platform

Why a service that the platform offers to nodes fails, and which error of a node that means.

## Main definitions

* `StoreError`: an entry of the data store that cannot be read.
* `PlatformError`: any failure of a platform service.
* `PlatformError.toNodeError`: the error of the node that used the service.
-/

namespace FlowEngine

/-- Why an entry cannot be read. -/
inductive StoreError where
  | notFound (key : String)
  | expired (key : String)
  deriving DecidableEq, Repr

/-- The message of an error. -/
def StoreError.message : StoreError → String
  | .notFound key => "Key not found: " ++ key
  | .expired key => "Key expired: " ++ key

/-- The kind of an error. -/
def StoreError.kind : StoreError → String
  | .notFound _ => "NotFound"
  | .expired _ => "Expired"

/-- Why a platform service fails. -/
inductive PlatformError where
  | timeout (callId : String) (seconds : Nat)
  | cancelled (callId : String)
  | callExpired (callId : String)
  | deliveryFailed (callId reason : String)
  | triggerFailed (target reason : String)
  | http (reason : String)
  | invalidRequest (reason : String)
  | store (error : StoreError)
  deriving DecidableEq, Repr

namespace PlatformError

/-- The message of an error. -/
def message : PlatformError → String
  | .timeout callId seconds =>
    "Workflow call " ++ callId ++ " timed out after " ++ toString seconds ++ "s"
  | .cancelled callId => "Workflow call " ++ callId ++ " was cancelled"
  | .callExpired callId => "Workflow call " ++ callId ++ " expired before its result arrived"
  | .deliveryFailed callId reason =>
    "Failed to deliver result for workflow call " ++ callId ++ ": " ++ reason
  | .triggerFailed target reason => "Failed to trigger workflow " ++ target ++ ": " ++ reason
  | .http reason => "HTTP request failed: " ++ reason
  | .invalidRequest reason => "Invalid request: " ++ reason
  | .store error => "Store error: " ++ error.message

/-- Whether the operation can safely be repeated. -/
def isRetryable : PlatformError → Bool
  | .timeout .. | .triggerFailed .. | .http _ => true
  | _ => false

/-- The kind of an error. -/
def kind : PlatformError → String
  | .timeout .. => "Timeout"
  | .cancelled _ => "Cancelled"
  | .callExpired _ => "CallExpired"
  | .deliveryFailed .. => "DeliveryFailed"
  | .triggerFailed .. => "TriggerFailed"
  | .http _ => "Http"
  | .invalidRequest _ => "InvalidRequest"
  | .store error => "Store." ++ error.kind

/-- The error of a kind. What else it says is found under the names of its parts. -/
def ofKind (kind : String) (part : String → String) (seconds : Nat) : PlatformError :=
  match kind with
  | "Timeout" => .timeout (part "call_id") seconds
  | "Cancelled" => .cancelled (part "call_id")
  | "CallExpired" => .callExpired (part "call_id")
  | "DeliveryFailed" => .deliveryFailed (part "call_id") (part "reason")
  | "TriggerFailed" => .triggerFailed (part "target") (part "reason")
  | "Http" => .http (part "message")
  | "Store.NotFound" => .store (.notFound (part "message"))
  | "Store.Expired" => .store (.expired (part "message"))
  | _ => .invalidRequest (part "message")

/-- The error of a node whose service failed. It can be repeated if the service can. -/
def toNodeError : PlatformError → NodeError
  | .timeout _ seconds => .timeout seconds
  | .cancelled _ => .cancelled
  | .invalidRequest reason => .configuration reason
  | error => if error.isRetryable then .executionFailed error.message else .aborted error.message

theorem isRetryable_toNodeError (e : PlatformError) : e.toNodeError.isRetryable = e.isRetryable := by
  cases e <;> rfl

end PlatformError

end FlowEngine
