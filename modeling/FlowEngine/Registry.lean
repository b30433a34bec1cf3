import FlowEngine.Capabilities
import FlowEngine.Node.Contracts

/-!
# The registry of node types

A catalog of node types under their identifiers. It only grows: the first registration of a type
stays for ever. Executing a configured node looks up its type, hands the envelope over and passes on
what comes back; a failure carries the envelope forward with the error recorded on it.

## Main definitions

* `Registration`: a node type with its extended contracts.
* `Registry.Entry`: a registration as the catalog keeps it.
* `Registry`: the catalog, with `register`, `find?`, `withCapabilities`.
* `NodeFailure`: a failed execution.
* `Registry.execute`: the execution of a configured node.
-/

namespace FlowEngine

/-- A node type with its extended contracts. -/
structure Registration where
  definition : NodeDefinition
  model : Option ModelContract := none
  memory : Option MemoryContract := none
  tool : Option ToolContract := none
  trigger : Option TriggerContract := none

namespace Registration

/-- The identifier of the type. -/
def typeId (r : Registration) : String := r.definition.info.typeId

/-- The contracts that the type satisfies. Every type can execute. -/
def capabilities (r : Registration) : Capabilities where
  action := true
  model := r.model.isSome
  memory := r.memory.isSome
  tool := r.tool.isSome
  trigger := r.trigger.isSome

end Registration

/-- A registration with what it said about itself when it was added. -/
structure Registry.Entry where
  typeId : String
  capabilities : Capabilities
  registration : Registration

/-- The entry of a registration. -/
def Registration.entry (r : Registration) : Registry.Entry := ⟨r.typeId, r.capabilities, r⟩

/-- Node types in the order of their registration. -/
structure Registry where
  entries : List Registry.Entry := []

namespace Registry

/-- The entry of a type. -/
def find? (r : Registry) (typeId : String) : Option Entry :=
  r.entries.find? fun e => e.typeId == typeId

/-- Adds a type, unless there is one with the same identifier. -/
def register (r : Registry) (registration : Registration) : Except RegistryError Registry :=
  if (r.find? registration.typeId).isSome then .error (.duplicateNodeType registration.typeId)
  else .ok ⟨r.entries ++ [registration.entry]⟩

/-- Adds types from left to right up to the first that cannot be added; with its error, if any. -/
def registerAll (r : Registry) : List Registration → Option RegistryError × Registry
  | [] => (none, r)
  | registration :: rest =>
    match r.register registration with
    | .ok r => r.registerAll rest
    | .error e => (some e, r)

/-- The entry of a type that has to be there. -/
def require (r : Registry) (typeId : String) : Except RegistryError Entry :=
  match r.find? typeId with
  | some e => .ok e
  | none => .error (.unknownNodeType typeId)

/-- The node type under an identifier. -/
def definition (r : Registry) (typeId : String) : Except RegistryError NodeDefinition :=
  (r.require typeId).map fun e => e.registration.definition

/-- The identifiers of all types. -/
def types (r : Registry) : List String := r.entries.map Entry.typeId

/-- The identifiers of the types that satisfy all contracts of a set. -/
def withCapabilities (r : Registry) (s : Capabilities) : List String :=
  (r.entries.filter fun e => e.capabilities.contains s).map Entry.typeId

/-- The contracts of a type. -/
def capabilities (r : Registry) (typeId : String) : Except RegistryError Capabilities :=
  (r.require typeId).map Entry.capabilities

/-- The description of a type. -/
def info? (r : Registry) (typeId : String) : Option NodeTypeMeta :=
  (r.find? typeId).map fun e => e.registration.definition.info

/-- The model contract of a type. -/
def model? (r : Registry) (typeId : String) : Option ModelContract :=
  (r.find? typeId).bind fun e => e.registration.model

/-- The memory contract of a type. -/
def memory? (r : Registry) (typeId : String) : Option MemoryContract :=
  (r.find? typeId).bind fun e => e.registration.memory

/-- The tool contract of a type. -/
def tool? (r : Registry) (typeId : String) : Option ToolContract :=
  (r.find? typeId).bind fun e => e.registration.tool

/-- The trigger contract of a type. -/
def trigger? (r : Registry) (typeId : String) : Option TriggerContract :=
  (r.find? typeId).bind fun e => e.registration.trigger

end Registry

/-- A failed execution: the error, and the input carried forward with the error recorded. -/
structure NodeFailure where
  error : NodeError
  envelope : Envelope Value

/-- The message of a failure. -/
def NodeFailure.message (f : NodeFailure) : String :=
  "node " ++ f.envelope.trace.nodeId ++ " failed: " ++ f.error.message

/-- The failure of a node: its input is carried forward to it, with the error recorded. -/
def NodeFailure.of (node : NodeConfig) (input : Envelope Value) (error : NodeError) :
    Issuing NodeFailure := do
  let envelope ← input.forward node.id input.data
  let now ← Issuing.now
  return ⟨error, envelope.withError (.ofNodeError now node.id error)⟩

/-- What a node makes of an envelope: nothing in a cancelled run, and nothing if its type is
unknown. -/
def Registry.dispatch (r : Registry) (context : NodeContext) (node : NodeConfig)
    (input : Envelope Value) : Activity (Except NodeError NodeOutput) :=
  if context.cancelled then pure (.error .cancelled)
  else
    match r.definition node.nodeType with
    | .error e => pure (.error (.configuration e.message))
    | .ok definition => definition.execute context node input

/-- The execution of a configured node. -/
def Registry.execute (r : Registry) (context : NodeContext) (node : NodeConfig)
    (input : Envelope Value) : Activity (Except NodeFailure NodeOutput) := do
  match ← r.dispatch context node input with
  | .ok output => return .ok output
  | .error error => return .error (← Activity.issue (NodeFailure.of node input error))

end FlowEngine
