import FlowEngine.Trace
import FlowEngine.Value.Basic

/-!
# Variables

Named values that the nodes of a process share. A variable is global, belongs to a workflow, or
belongs to a run; which workflow or run is meant follows from a context.

## Main definitions

* `Scope`, `VariableContext`: which partition of the variables is meant.
* `VariableStore`: all variables.
* `VariableStore.get`, `set`, `delete`, `snapshot`, `clearRun`, `clearWorkflow`: its operations.
* `VariableError`: the context does not name the partition.
-/

namespace FlowEngine

/-- What a variable belongs to. -/
inductive Scope where
  | global
  | workflow
  | run
  deriving DecidableEq, Repr

namespace Scope

/-- The name of a scope. -/
def name : Scope → String
  | .global => "global"
  | .workflow => "workflow"
  | .run => "run"

/-- All scopes under their names. -/
def named : List (String × Scope) := [Scope.global, .workflow, .run].map fun s => (s.name, s)

end Scope

/-- Scopes by name. -/
def Codec.scope : Codec Scope := choice Scope.named Scope.name

/-- A scope whose partition the context does not name. -/
inductive VariableError where
  | missingContext (scope : Scope) (field : String)
  deriving DecidableEq, Repr

/-- The message of an error. -/
def VariableError.message : VariableError → String
  | .missingContext scope field =>
    scope.name ++ " scope requires '" ++ field ++ "' in the execution context"

/-- Who asks for a variable. -/
structure VariableContext where
  agentId : Option String := none
  runId : Option String := none
  deriving DecidableEq, Repr

namespace VariableContext

/-- A name, unless it is empty. -/
def nonempty? (s : String) : Option String := if s.isEmpty then none else some s

/-- The context of a workflow and a run, of which each may be empty. -/
def of (agentId runId : String) : VariableContext := ⟨nonempty? agentId, nonempty? runId⟩

/-- The context of a trace. -/
def ofTrace (t : Trace) : VariableContext := of t.agentId t.runId

/-- The name of the partition of a scope; the global scope has only one. -/
def partition (context : VariableContext) : Scope → Except VariableError String
  | .global => .ok ""
  | .workflow => context.agentId.elim (.error (.missingContext .workflow "agent_id")) .ok
  | .run => context.runId.elim (.error (.missingContext .run "run_id")) .ok

end VariableContext

/-- All variables: the global ones, and those of every workflow and of every run. -/
structure VariableStore where
  global : Dict Value := {}
  workflow : Dict (Dict Value) := {}
  run : Dict (Dict Value) := {}

namespace VariableStore

instance : Inhabited VariableStore := ⟨{}⟩

/-- The variables of a partition of a scope. -/
def cells (store : VariableStore) : Scope → String → Dict Value
  | .global, _ => store.global
  | .workflow, p => (store.workflow.get? p).getD {}
  | .run, p => (store.run.get? p).getD {}

/-- Replaces the variables of a partition of a scope. -/
def replace (store : VariableStore) (scope : Scope) (p : String) (d : Dict Value) : VariableStore :=
  match scope with
  | .global => { store with global := d }
  | .workflow => { store with workflow := store.workflow.insert p d }
  | .run => { store with run := store.run.insert p d }

/-- The value of a variable, if it has one. -/
def get (store : VariableStore) (context : VariableContext) (scope : Scope) (key : String) :
    Except VariableError (Option Value) :=
  (context.partition scope).map fun p => (store.cells scope p).get? key

/-- Gives a variable a value. -/
def set (store : VariableStore) (context : VariableContext) (scope : Scope) (key : String)
    (value : Value) : Except VariableError VariableStore :=
  (context.partition scope).map fun p =>
    store.replace scope p ((store.cells scope p).insert key value)

/-- Removes a variable, and returns the value that it had. -/
def delete (store : VariableStore) (context : VariableContext) (scope : Scope) (key : String) :
    Except VariableError (Option Value × VariableStore) :=
  (context.partition scope).map fun p =>
    let d := store.cells scope p
    (d.get? key, if d.contains key then store.replace scope p (d.erase key) else store)

/-- All variables of the partition that the context names. -/
def snapshot (store : VariableStore) (context : VariableContext) (scope : Scope) :
    Except VariableError (Dict Value) :=
  (context.partition scope).map fun p => store.cells scope p

/-- Forgets the variables of a run. -/
def clearRun (store : VariableStore) (runId : String) : VariableStore :=
  { store with run := store.run.erase runId }

/-- Forgets the variables of a workflow. -/
def clearWorkflow (store : VariableStore) (agentId : String) : VariableStore :=
  { store with workflow := store.workflow.erase agentId }

theorem cells_replace (store : VariableStore) (scope : Scope) (p : String) (d : Dict Value) :
    (store.replace scope p d).cells scope p = d := by
  cases scope <;> simp [replace, cells]

end VariableStore

end FlowEngine
