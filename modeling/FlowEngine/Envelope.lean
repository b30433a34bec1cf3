import FlowEngine.NodeError
import FlowEngine.Time.Timestamp
import FlowEngine.Uuid
import FlowEngine.Value.Tagged

/-!
# Envelopes

The data that flow between nodes. A message is what an envelope says: its payload with everything
that travels along. Sealing a message gives it an identity and a time of issue, and makes it an
envelope. An envelope is sealed when it is derived from another one, forwarded or copied, and amending
it afterwards leaves its identity alone.

## Main definitions

* `ExecutionError`: an error recorded on an envelope.
* `Message`, `Envelope`: what an envelope says, and the envelope.
* `Message.derive`, `Message.forward`: what the next envelope says.
* `Message.getVariable`, `Message.setVariable`: variables as seen through an envelope.
* `Supply`, `Issuing`: fresh identities, and work that uses them up.
* `Envelope.derive`, `Envelope.forward`, `Envelope.copy`: envelopes that are made of another one.
* `Codec.envelope`: its representation.
-/

namespace FlowEngine

/-- An error recorded on an envelope. It informs, and does not stop the run. -/
structure ExecutionError where
  time : Timestamp
  nodeId : String
  message : String
  stack : Option String := none
  code : Option String := none
  deriving DecidableEq

/-- The record of a node's error. -/
def ExecutionError.ofNodeError (time : Timestamp) (nodeId : String) (error : NodeError) :
    ExecutionError :=
  { time, nodeId, message := error.message, code := some error.code }

/-- What an envelope says. -/
structure Message (α : Type) where
  version : UInt32
  dataType : DataType
  data : α
  binary : Dict (List UInt8)
  metadata : Dict String
  vars : Dict Value
  trace : Trace
  errors : List ExecutionError

/-- A message with an identity. -/
structure Envelope (α : Type) extends Message α where
  id : Uuid
  issuedAt : Timestamp

/-- Payloads that know their shape. -/
class HasDataType (α : Type) where
  dataTypeOf : α → DataType

export HasDataType (dataTypeOf)

instance : HasDataType Value := ⟨Value.dataType⟩

instance : HasDataType String := ⟨fun _ => .string⟩

instance : HasDataType Json where
  dataTypeOf
    | .null => .null
    | .bool _ => .boolean
    | .number _ => .number
    | .string _ => .string
    | .array _ => .array
    | .object _ => .object

namespace Message

variable {α β : Type}

/-- The first message of a run. -/
def new [HasDataType α] (data : α) (trace : Trace) : Message α where
  version := 1
  dataType := dataTypeOf data
  data := data
  binary := {}
  metadata := {}
  vars := {}
  trace := trace
  errors := []

/-- A message with another payload and trace, and all else carried over. -/
def derive [HasDataType β] (m : Message α) (data : β) (trace : Trace) : Message β :=
  { m with data := data, dataType := dataTypeOf data, trace := trace }

/-- A message with another payload, and the trace advanced to a node. -/
def forward [HasDataType β] (m : Message α) (nodeId : String) (data : β) : Message β :=
  m.derive data (m.trace.next nodeId)

/-- The same message with another version. -/
def withVersion (m : Message α) (version : UInt32) : Message α := { m with version := version }

/-- The same message with another entry in its metadata. -/
def withMeta (m : Message α) (key value : String) : Message α :=
  { m with metadata := m.metadata.insert key value }

/-- The same message with another binary attachment. -/
def withBinary (m : Message α) (name : String) (bytes : List UInt8) : Message α :=
  { m with binary := m.binary.insert name bytes }

/-- The same message with one more error. -/
def withError (m : Message α) (error : ExecutionError) : Message α :=
  { m with errors := m.errors ++ [error] }

/-- The latest error. -/
def lastError? (m : Message α) : Option ExecutionError := m.errors.getLast?

/-- The value of a variable. In the scope of the run, the variables that travel with the message
come before those of the store. -/
def getVariable (m : Message α) (store : VariableStore) (scope : Scope) (key : String) :
    Except VariableError (Option Value) :=
  let inline := if scope = .run then m.vars.get? key else none
  match inline with
  | some value => .ok (some value)
  | none => store.get (.ofTrace m.trace) scope key

/-- Gives a variable a value: in the scope of the run on the message, else in the store. -/
def setVariable (m : Message α) (store : VariableStore) (scope : Scope) (key : String)
    (value : Value) : Except VariableError (Message α × VariableStore) :=
  match scope with
  | .run =>
    if m.trace.runId.isEmpty then .error (.missingContext .run "run_id")
    else .ok ({ m with vars := m.vars.insert key value }, store)
  | scope => (store.set (.ofTrace m.trace) scope key value).map fun store => (m, store)

end Message

/-! ### Identity -/

/-- A source of identities that were not used before, and the current time. -/
structure Supply where
  next : Nat
  now : Timestamp

namespace Supply

/-- An identity that was not used before. -/
def fresh (supply : Supply) : Uuid × Supply :=
  (.ofNat supply.next, { supply with next := supply.next + 1 })

end Supply

/-- Work that draws on a supply. -/
def Issuing (α : Type) : Type := Supply → α × Supply

namespace Issuing

variable {α β : Type}

instance : Monad Issuing where
  pure a := fun supply => (a, supply)
  bind work next := fun supply => next (work supply).1 (work supply).2

/-- The current time. -/
def now : Issuing Timestamp := fun supply => (supply.now, supply)

/-- Works on the items of a list, from left to right. -/
def each (f : α → Issuing β) : List α → Issuing (List β)
  | [] => pure []
  | a :: as => do
    let b ← f a
    let bs ← each f as
    return b :: bs

@[simp] theorem pure_apply (a : α) (supply : Supply) : (pure a : Issuing α) supply = (a, supply) := rfl

@[simp] theorem bind_apply (work : Issuing α) (next : α → Issuing β) (supply : Supply) :
    (work >>= next) supply = next (work supply).1 (work supply).2 := rfl

end Issuing

/-- Makes an envelope of a message. -/
def Message.seal {α : Type} (m : Message α) : Issuing (Envelope α) := fun supply =>
  let (id, later) := supply.fresh
  ({ m with id := id, issuedAt := supply.now }, later)

namespace Envelope

variable {α β : Type}

/-- A new envelope with another payload and trace, and all else carried over. -/
def derive [HasDataType β] (e : Envelope α) (data : β) (trace : Trace) : Issuing (Envelope β) :=
  (e.toMessage.derive data trace).seal

/-- A new envelope with another payload, and the trace advanced to a node. -/
def forward [HasDataType β] (e : Envelope α) (nodeId : String) (data : β) : Issuing (Envelope β) :=
  e.derive data (e.trace.next nodeId)

/-- A copy, which has an identity of its own. -/
def copy (e : Envelope α) : Issuing (Envelope α) := e.toMessage.seal

/-- The same envelope, which now says something else. -/
def amend (e : Envelope α) (f : Message α → Message α) : Envelope α :=
  { e with toMessage := f e.toMessage }

/-- The same envelope with another entry in its metadata. -/
def withMeta (e : Envelope α) (key value : String) : Envelope α :=
  e.amend fun m => m.withMeta key value

/-- The same envelope with one more error. -/
def withError (e : Envelope α) (error : ExecutionError) : Envelope α :=
  e.amend fun m => m.withError error

end Envelope

/-! ### Representation -/

namespace Codec

/-- Names of shapes. -/
def dataType : Codec DataType :=
  choice
    ([DataType.null, .boolean, .number, .string, .binary, .array, .object, .unknown].map
      fun t => (t.name, t))
    DataType.name

/-- Recorded errors as records. -/
def executionError : Codec ExecutionError :=
  record "ExecutionError"
    (.cons ⟨"time", timestamp, none⟩ <| .cons ⟨"node_id", text, none⟩ <|
      .cons ⟨"message", text, none⟩ <| .cons ⟨"stack", optional text, some none⟩ <|
      .cons ⟨"code", optional text, some none⟩ .nil)
    (fun (time, nodeId, message, stack, code, _) => ⟨time, nodeId, message, stack, code⟩)
    fun e => (e.time, e.nodeId, e.message, e.stack, e.code, ())

/-- Envelopes as records, given the representation of their payload. -/
def envelope {α : Type} (payload : Codec α) : Codec (Envelope α) :=
  record "Envelope"
    (.cons ⟨"id", uuid, none⟩ <| .cons ⟨"issued_at", timestamp, none⟩ <|
      .cons ⟨"version", uint32, none⟩ <| .cons ⟨"data_type", dataType, none⟩ <|
      .cons ⟨"data", payload, none⟩ <| .cons ⟨"binary", dict (list uint8), some {}⟩ <|
      .cons ⟨"meta", dict text, some {}⟩ <| .cons ⟨"variables", dict value, some {}⟩ <|
      .cons ⟨"trace", trace, none⟩ <| .cons ⟨"errors", list executionError, some []⟩ .nil)
    (fun (id, issuedAt, version, dataType, data, binary, metadata, vars, trace, errors, _) =>
      { id, issuedAt, version, dataType, data, binary, metadata, vars, trace, errors })
    fun e => (e.id, e.issuedAt, e.version, e.dataType, e.data, e.binary, e.metadata, e.vars,
      e.trace, e.errors, ())

end Codec

end FlowEngine
