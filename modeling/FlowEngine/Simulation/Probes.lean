import FlowEngine.Registry

/-!
# Probe nodes

Node types for trying workflows out. Each of them does one thing on demand: pass its payload on,
hold it back, drop it, fail, wait, count, or add two numbers.

## Main definitions

* `Probe.echo`, `hold`, `drop`, `fail`, `sleep`, `count`, `add`: the node types.
* `Probe.all`: their registrations.
-/

namespace FlowEngine

namespace Probe

/-- The description of a probe. -/
def info (typeId : String) : NodeTypeMeta := { typeId, label := typeId, category := "test" }

/-- The payload, advanced to a node. -/
def forward (node : NodeConfig) (input : Envelope Value) (payload : Value) : Issuing NodeOutput :=
  .single <$> input.forward node.id payload

/-- Passes its payload on. -/
def echo : NodeDefinition :=
  .simple (info "test.echo") fun node input => .ok (forward node input input.data)

/-- Holds its payload back. -/
def hold : NodeDefinition := .simple (info "test.hold") fun _ _ => .ok (pure .pending)

/-- Drops its payload. -/
def drop : NodeDefinition := .simple (info "test.empty") fun _ _ => .ok (pure (.many []))

/-- The greatest number up to which doubles tell all integers apart. -/
def greatestExact : Nat := Nat.pow 2 53

/-- A duration in seconds: a natural number that doubles tell apart from its neighbours. -/
def seconds? : Value → Option Nat
  | .number x => (Binary.int? x).bind fun n =>
    if 0 ≤ n ∧ n ≤ greatestExact then some n.toNat else none
  | _ => none

/-- The error that a configuration describes. -/
def failure (node : NodeConfig) : NodeError :=
  let text (key : String) : String := (node.text? key).getD ""
  .ofKind (text "kind") text (((node.config.get? "seconds").bind seconds?).getD 0)

/-- Fails as configured. -/
def fail : NodeDefinition := .simple (info "test.fail") fun node _ => .error (failure node)

/-- Waits for as many milliseconds as its payload says, and passes it on. -/
def sleep : NodeDefinition where
  info := info "test.sleep"
  execute := fun _ node input => do
    let () ← Activity.ask (.pause (.ofMillis (input.data.asNatural?.getD 0)))
    return .ok (← Activity.issue (forward node input input.data))

/-- Adds one to a variable. -/
def increment (context : VariableContext) (scope : Scope) (key : String) (store : VariableStore) :
    Except VariableError (Value × VariableStore) := do
  let old ← store.get context scope key
  let value := Value.number ((old.bind Value.asNumber?).getD 0 + 1)
  return (value, ← store.set context scope key value)

/-- Adds one to the configured variable, and emits its value. -/
def count : NodeDefinition where
  info := info "test.count"
  execute := fun context node input => do
    let scope := ((node.text? "scope").bind fun name => Scope.named.lookup name).getD .run
    let key := (node.text? "key").getD "n"
    match ← Activity.use fun state =>
      match increment context.variableContext scope key state.variableStore with
      | .ok (value, variableStore) => (Except.ok value, { state with variableStore })
      | .error e => (.error e, state) with
    | .ok value => return .ok (← Activity.issue (forward node input value))
    | .error e => return .error (.executionFailed e.message)

/-- Two numbers. -/
structure Summands where
  a : Float
  b : Float

/-- Their sum. -/
structure Sum where
  sum : Float

instance : Payload Summands where
  dataTypeOf _ := .object
  codec := .record "AddInput" (.cons ⟨"a", .real, none⟩ <| .cons ⟨"b", .real, none⟩ .nil)
    (fun (a, b, _) => ⟨a, b⟩) fun s => (s.a, s.b, ())
  typeName := "AddInput"

instance : Payload Sum where
  dataTypeOf _ := .object
  codec := .record "AddOutput" (.cons ⟨"sum", .real, none⟩ .nil) (fun (sum, _) => ⟨sum⟩)
    fun s => (s.sum, ())
  typeName := "AddOutput"

/-- Adds two numbers. -/
def add : NodeDefinition :=
  TypedNode.definition (ι := Summands) (ο := Sum)
    { info := info "test.add"
      execute := fun _ node input =>
        Activity.attempt (.ok (input.forward node.id (Sum.mk (input.data.a + input.data.b)))) }

/-- All probes. -/
def all : List Registration :=
  [echo, hold, drop, fail, sleep, count, add].map fun definition => { definition }

end Probe

end FlowEngine
