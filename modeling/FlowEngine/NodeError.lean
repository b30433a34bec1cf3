import FlowEngine.Variables

/-!
# Errors of nodes

Why the execution of a node fails, and why a node type cannot be registered or found.

## Main definitions

* `NodeError`: with a message, a stable code and whether repeating can help.
* `RegistryError`: with a message.
-/

namespace FlowEngine

/-- Why a node fails. -/
inductive NodeError where
  | missingInput (field : String)
  | invalidInputType (field expected actual : String)
  | typeMismatch (expected actual detail : String)
  | emptyInput (reason : String)
  | configuration (reason : String)
  | executionFailed (reason : String)
  /-- Repeating the execution cannot help. -/
  | aborted (reason : String)
  | timeout (seconds : Nat)
  | cancelled
  deriving DecidableEq, Repr

namespace NodeError

/-- The message of an error. -/
def message : NodeError → String
  | .missingInput field => "Missing required input: " ++ field
  | .invalidInputType field expected actual =>
    "Invalid input type for '" ++ field ++ "': expected " ++ expected ++ ", got " ++ actual
  | .typeMismatch expected actual detail =>
    "Type mismatch: expected " ++ expected ++ ", got " ++ actual ++ " (" ++ detail ++ ")"
  | .emptyInput reason => "Empty input sequence: " ++ reason
  | .configuration reason => "Configuration error: " ++ reason
  | .executionFailed reason => "Execution failed: " ++ reason
  | .aborted reason => "Execution aborted: " ++ reason
  | .timeout seconds => "Timeout after " ++ toString seconds ++ "s"
  | .cancelled => "Cancelled"

/-- The code under which an error is recorded on envelopes. -/
def code : NodeError → String
  | .missingInput _ => "missing_input"
  | .invalidInputType .. | .typeMismatch .. => "type_mismatch"
  | .emptyInput _ => "empty_input"
  | .configuration _ => "configuration"
  | .executionFailed _ => "execution_failed"
  | .aborted _ => "aborted"
  | .timeout _ => "timeout"
  | .cancelled => "cancelled"

/-- Whether repeating the same execution could succeed. -/
def isRetryable : NodeError → Bool
  | .executionFailed _ | .timeout _ => true
  | _ => false

/-- The error of a kind. What else it says is found under the names of its parts. -/
def ofKind (kind : String) (part : String → String) (seconds : Nat) : NodeError :=
  match kind with
  | "MissingInput" => .missingInput (part "message")
  | "InvalidInputType" => .invalidInputType (part "field") (part "expected") (part "actual")
  | "TypeMismatch" => .typeMismatch (part "expected") (part "actual") (part "detail")
  | "EmptyInput" => .emptyInput (part "message")
  | "Configuration" => .configuration (part "message")
  | "Aborted" => .aborted (part "message")
  | "Timeout" => .timeout seconds
  | "Cancelled" => .cancelled
  | _ => .executionFailed (part "message")

/-- The kind of an error. -/
def kind : NodeError → String
  | .missingInput _ => "MissingInput"
  | .invalidInputType .. => "InvalidInputType"
  | .typeMismatch .. => "TypeMismatch"
  | .emptyInput _ => "EmptyInput"
  | .configuration _ => "Configuration"
  | .executionFailed _ => "ExecutionFailed"
  | .aborted _ => "Aborted"
  | .timeout _ => "Timeout"
  | .cancelled => "Cancelled"

end NodeError

/-- Why a node type cannot be registered or found. -/
inductive RegistryError where
  | unknownNodeType (typeId : String)
  | duplicateNodeType (typeId : String)
  deriving DecidableEq, Repr

/-- The message of an error. -/
def RegistryError.message : RegistryError → String
  | .unknownNodeType typeId => "Unknown node type: " ++ typeId
  | .duplicateNodeType typeId => "Node type already registered: " ++ typeId

end FlowEngine
