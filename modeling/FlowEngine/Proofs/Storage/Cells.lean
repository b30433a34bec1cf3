import FlowEngine.Proofs.Storage.Latest
import FlowEngine.Variables
import Mathlib.Logic.Function.Basic

/-!
# The variables as one flat map

The store keeps three tables, two of them with a table for every workflow or run that has been
written to; clearing removes such a table and deleting from it does not. None of this can be seen
from outside: whatever the operations and whoever gives them, the store answers as one map from cells
to values, where a cell is a scope, the name of a partition and a key.

## How partitions are named

A context comes from two identifiers, from a trace, or from nowhere. `Origin.id` reads off what it
says about a scope; an empty text says nothing. Two contexts see each other in a scope exactly if
they say the same about it, whatever they say about the other scope (`Origin.cell_eq_iff`).

## Main definitions

* `VariableContext.Origin`: how contexts are made.
* `VariableStore.Operation`, `VariableStore.execute`: the operations with their answers.
* `Cell`, `CellMap`, `CellMap.apply`, `CellMap.Answers`: the one map, what an operation makes of it,
  and what it answers.
* `VariableStore.flat`: the map that a store stands for.
* `VariableStore.Kept`: the last operation that gave a cell a value, unless it was removed since.

## Main results

* `VariableStore.flat_execute`, `VariableStore.answers_execute`: one operation.
* `VariableStore.answers_of_history`: any history.
-/

namespace FlowEngine

/-! ## Contexts -/

/-- The field that names the partition of a scope. The global scope has only one. -/
def Scope.field : Scope → String
  | .global => ""
  | .workflow => "agent_id"
  | .run => "run_id"

namespace VariableContext

/-- What a context is made from. -/
inductive Origin where
  /-- Nothing. -/
  | unnamed
  /-- The identifiers of a workflow and of a run. -/
  | named (agentId runId : String)
  | traced (trace : Trace)

namespace Origin

/-- The context. -/
def context : Origin → VariableContext
  | .unnamed => {}
  | .named agentId runId => of agentId runId
  | .traced trace => ofTrace trace

/-- The identifier that stands for a scope, empty if there is none. -/
def id : Origin → Scope → String
  | _, .global => ""
  | .unnamed, _ => ""
  | .named agentId _, .workflow => agentId
  | .named _ runId, .run => runId
  | .traced trace, .workflow => trace.agentId
  | .traced trace, .run => trace.runId

/-- The origin names a partition of the scope. -/
def Names (o : Origin) (scope : Scope) : Prop := scope = .global ∨ o.id scope ≠ ""

instance (o : Origin) (scope : Scope) : Decidable (o.Names scope) :=
  inferInstanceAs (Decidable (_ ∨ _))

@[simp] theorem id_global (o : Origin) : o.id .global = "" := by cases o <;> rfl

/-- The partition of a scope is the identifier that stands for it; without one there is an error
with the scope and the field. -/
theorem partition_context (o : Origin) (scope : Scope) :
    o.context.partition scope =
      if o.Names scope then .ok (o.id scope) else .error (.missingContext scope scope.field) := by
  have hname (s : String) (e : VariableError) :
      (nonempty? s).elim (.error e) .ok =
        if s ≠ "" then (.ok s : Except VariableError String) else .error e := by
    by_cases hs : s = "" <;> simp [nonempty?, hs]
  cases scope with
  | global => simp [partition, Names]
  | workflow => cases o <;> simp [partition, Names, context, of, ofTrace, id, hname, Scope.field]
  | run => cases o <;> simp [partition, Names, context, of, ofTrace, id, hname, Scope.field]

/-- An operation that works on the partition works on that of the identifier, or fails. -/
theorem map_partition {β : Type} (o : Origin) (scope : Scope) (f : String → β) :
    (o.context.partition scope).map f =
      if o.Names scope then .ok (f (o.id scope))
      else .error (.missingContext scope scope.field) := by
  rw [partition_context]
  split <;> rfl

end Origin

end VariableContext

open VariableContext (Origin)

/-! ## Cells -/

/-- A place for a value. The global scope has one partition, which has no name. -/
structure Cell where
  scope : Scope
  partition : String
  key : String
  unnamed_global : scope = .global → partition = ""
  deriving DecidableEq

namespace Cell

theorem eq_iff {c d : Cell} :
    c = d ↔ c.scope = d.scope ∧ c.partition = d.partition ∧ c.key = d.key := by
  cases c
  cases d
  simp

end Cell

/-- The cell of a key in the partition that an origin names. -/
def VariableContext.Origin.cell (o : Origin) (scope : Scope) (key : String) : Cell :=
  ⟨scope, o.id scope, key, by rintro rfl; exact o.id_global⟩

/-- Origins share a cell if they agree about its scope; the other scope does not matter. -/
theorem VariableContext.Origin.cell_eq_iff {o o' : Origin} {scope scope' : Scope}
    {key key' : String} :
    o.cell scope key = o'.cell scope' key' ↔
      scope = scope' ∧ o.id scope = o'.id scope' ∧ key = key' :=
  Cell.eq_iff

/-! ## Operations -/

namespace VariableStore

/-- An operation with its arguments. -/
inductive Operation where
  | get (o : Origin) (scope : Scope) (key : String)
  | set (o : Origin) (scope : Scope) (key : String) (value : Value)
  | delete (o : Origin) (scope : Scope) (key : String)
  | snapshot (o : Origin) (scope : Scope)
  | clearRun (runId : String)
  | clearWorkflow (agentId : String)

/-- What an operation returns. -/
inductive Answer where
  | done
  /-- A value, or that there is none. -/
  | found (value : Option Value)
  | listed (d : Dict Value)
  | failed (e : VariableError)

/-- Executes an operation. An operation that fails leaves the store as it is. -/
def execute (store : VariableStore) : Operation → Answer × VariableStore
  | .get o scope key =>
    match store.get o.context scope key with
    | .ok value => (.found value, store)
    | .error e => (.failed e, store)
  | .set o scope key value =>
    match store.set o.context scope key value with
    | .ok store' => (.done, store')
    | .error e => (.failed e, store)
  | .delete o scope key =>
    match store.delete o.context scope key with
    | .ok (value, store') => (.found value, store')
    | .error e => (.failed e, store)
  | .snapshot o scope =>
    match store.snapshot o.context scope with
    | .ok d => (.listed d, store)
    | .error e => (.failed e, store)
  | .clearRun runId => (.done, store.clearRun runId)
  | .clearWorkflow agentId => (.done, store.clearWorkflow agentId)

/-- The store after a history. -/
def after (history : List Operation) : VariableStore :=
  history.foldl (fun store operation => (store.execute operation).2) {}

@[simp] theorem after_concat (history : List Operation) (operation : Operation) :
    after (history ++ [operation]) = ((after history).execute operation).2 := by
  simp [after]

end VariableStore

open VariableStore (Operation Answer)

/-! ## The one map -/

/-- Values by cell. -/
abbrev CellMap := Cell → Option Value

namespace CellMap

/-- What an operation makes of the map. -/
def apply (m : CellMap) : Operation → CellMap
  | .set o scope key value =>
    if o.Names scope then Function.update m (o.cell scope key) (some value) else m
  | .delete o scope key => if o.Names scope then Function.update m (o.cell scope key) none else m
  | .clearRun runId => fun c => if c.scope = .run ∧ c.partition = runId then none else m c
  | .clearWorkflow agentId =>
    fun c => if c.scope = .workflow ∧ c.partition = agentId then none else m c
  | .get .. | .snapshot .. => m

/-- The map after a history. -/
def after (history : List Operation) : CellMap := history.foldl apply fun _ => none

@[simp] theorem after_concat (history : List Operation) (operation : Operation) :
    after (history ++ [operation]) = (after history).apply operation := by
  simp [after]

/-- The answer to an operation that reads or writes one cell: the given one, or that the context does
not name the partition. -/
def answer (o : Origin) (scope : Scope) (a : Answer) : Answer :=
  if o.Names scope then a else .failed (.missingContext scope scope.field)

/-- What an operation answers. A list of the variables of a partition has exactly the keys that have a
value there, with that value. -/
def Answers (m : CellMap) : Operation → Answer → Prop
  | .get o scope key, a | .delete o scope key, a =>
    a = answer o scope (.found (m (o.cell scope key)))
  | .set o scope _ _, a => a = answer o scope .done
  | .snapshot o scope, a => ∃ d : Dict Value, a = answer o scope (.listed d) ∧
      ∀ key value, (key, value) ∈ d.entries ↔ m (o.cell scope key) = some value
  | .clearRun _, a | .clearWorkflow _, a => a = .done

end CellMap

namespace VariableStore

/-- The map that a store stands for. -/
def flat (store : VariableStore) : CellMap := fun c => (store.cells c.scope c.partition).get? c.key

/-! ## One operation -/

/-- Replacing the variables of one partition leaves those of the others. -/
theorem cells_replace_of_ne (store : VariableStore) {scope scope' : Scope} {p p' : String}
    (d : Dict Value) (h : scope' = scope → scope ≠ .global ∧ p' ≠ p) :
    (store.replace scope p d).cells scope' p' = store.cells scope' p' := by
  cases scope <;> cases scope' <;> simp_all [replace, cells]

/-- Writing one key of a partition writes one cell. -/
theorem flat_replace (store : VariableStore) (o : Origin) (scope : Scope) (key : String)
    {d : Dict Value} {value : Option Value}
    (hd : ∀ k, d.get? k = if k = key then value else (store.cells scope (o.id scope)).get? k) :
    (store.replace scope (o.id scope) d).flat =
      Function.update store.flat (o.cell scope key) value := by
  funext c
  by_cases hp : c.scope = scope ∧ c.partition = o.id scope
  · obtain ⟨rfl, hpartition⟩ := hp
    by_cases hk : c.key = key
    · have hc : c = o.cell c.scope key := Cell.eq_iff.2 ⟨rfl, hpartition, hk⟩
      rw [← hc, Function.update_self, flat, hpartition, cells_replace, hd, if_pos hk]
    · have hc : c ≠ o.cell c.scope key := fun h => hk (Cell.eq_iff.1 h).2.2
      rw [Function.update_of_ne hc, flat, flat, hpartition, cells_replace, hd, if_neg hk]
  · have hc : c ≠ o.cell scope key := by
      rintro rfl
      exact hp ⟨rfl, rfl⟩
    rw [Function.update_of_ne hc, flat, cells_replace_of_ne, flat]
    rintro rfl
    refine ⟨fun hglobal => hp ⟨rfl, ?_⟩, fun h => hp ⟨rfl, h⟩⟩
    rw [c.unnamed_global hglobal, hglobal, o.id_global]

theorem flat_clearRun (store : VariableStore) (runId : String) (c : Cell) :
    (store.clearRun runId).flat c =
      if c.scope = .run ∧ c.partition = runId then none else store.flat c := by
  obtain ⟨scope, p, key, h⟩ := c
  cases scope with
  | run =>
    by_cases hp : p = runId
    · simp [flat, clearRun, cells, hp]
    · simp [flat, clearRun, cells, hp]
  | _ => simp [flat, clearRun, cells]

theorem flat_clearWorkflow (store : VariableStore) (agentId : String) (c : Cell) :
    (store.clearWorkflow agentId).flat c =
      if c.scope = .workflow ∧ c.partition = agentId then none else store.flat c := by
  obtain ⟨scope, p, key, h⟩ := c
  cases scope with
  | workflow =>
    by_cases hp : p = agentId
    · simp [flat, clearWorkflow, cells, hp]
    · simp [flat, clearWorkflow, cells, hp]
  | _ => simp [flat, clearWorkflow, cells]

/-- An operation does to the store what it does to the map. -/
theorem flat_execute (store : VariableStore) (operation : Operation) :
    (store.execute operation).2.flat = store.flat.apply operation := by
  cases operation with
  | get o scope key =>
    by_cases hn : o.Names scope <;> simp [execute, get, CellMap.apply, o.map_partition, hn]
  | snapshot o scope =>
    by_cases hn : o.Names scope <;> simp [execute, snapshot, CellMap.apply, o.map_partition, hn]
  | clearRun runId => exact funext (store.flat_clearRun runId)
  | clearWorkflow agentId => exact funext (store.flat_clearWorkflow agentId)
  | set o scope key value =>
    by_cases hn : o.Names scope
    · have := store.flat_replace o scope key
        (Dict.get?_insert (store.cells scope (o.id scope)) key value)
      simpa [execute, set, CellMap.apply, o.map_partition, hn] using this
    · simp [execute, set, CellMap.apply, o.map_partition, hn]
  | delete o scope key =>
    by_cases hn : o.Names scope
    · have herase := store.flat_replace o scope key
        (Dict.get?_erase (store.cells scope (o.id scope)) key)
      simp only [execute, delete, CellMap.apply, o.map_partition, if_pos hn]
      split
      · exact herase
      · rename_i habsent
        have hnone : store.flat (o.cell scope key) = none := by
          simpa [Dict.contains, flat, Origin.cell] using habsent
        rw [← hnone, Function.update_eq_self]
    · simp [execute, delete, CellMap.apply, o.map_partition, hn]

/-- An operation is answered from the map. -/
theorem answers_execute (store : VariableStore) (operation : Operation) :
    store.flat.Answers operation (store.execute operation).1 := by
  cases operation with
  | get o scope key =>
    by_cases hn : o.Names scope <;>
      simp [CellMap.Answers, CellMap.answer, execute, get, o.map_partition, hn, flat, Origin.cell]
  | set o scope key value =>
    by_cases hn : o.Names scope <;>
      simp [CellMap.Answers, CellMap.answer, execute, set, o.map_partition, hn]
  | delete o scope key =>
    by_cases hn : o.Names scope <;>
      simp [CellMap.Answers, CellMap.answer, execute, delete, o.map_partition, hn, flat, Origin.cell]
  | snapshot o scope =>
    refine ⟨store.cells scope (o.id scope), ?_, fun key value => Dict.mem_entries_iff _⟩
    by_cases hn : o.Names scope <;>
      simp [CellMap.answer, execute, snapshot, o.map_partition, hn]
  | clearRun runId => rfl
  | clearWorkflow agentId => rfl

/-- An operation that fails changes nothing. -/
theorem execute_of_failed {store : VariableStore} {operation : Operation} {e : VariableError}
    (h : (store.execute operation).1 = .failed e) : (store.execute operation).2 = store := by
  cases operation with
  | clearRun runId => cases h
  | clearWorkflow agentId => cases h
  | _ =>
    simp only [execute] at h ⊢
    split at h <;> simp_all

/-! ## Histories -/

/-- An operation gives a cell a value. -/
def Operation.Sets (c : Cell) : Operation → Value → Prop
  | .set o scope key value, v => o.Names scope ∧ c = o.cell scope key ∧ v = value
  | _, _ => False

/-- An operation ends what a cell held: it sets the cell, deletes it, or clears its partition. -/
def Operation.Ends (c : Cell) : Operation → Prop
  | .set o scope key _ | .delete o scope key => o.Names scope ∧ c = o.cell scope key
  | .clearRun runId => c.scope = .run ∧ c.partition = runId
  | .clearWorkflow agentId => c.scope = .workflow ∧ c.partition = agentId
  | .get .. | .snapshot .. => False

/-- The value that a history leaves in a cell: that of the last set which no later operation ended. -/
def Kept (c : Cell) (history : List Operation) (value : Value) : Prop :=
  Latest (Operation.Sets c) (Operation.Ends c) history value

theorem apply_eq_some_iff (m : CellMap) (operation : Operation) (c : Cell) (v : Value) :
    m.apply operation c = some v ↔ operation.Sets c v ∨ ¬ operation.Ends c ∧ m c = some v := by
  cases operation with
  | get o scope key => simp [CellMap.apply, Operation.Sets, Operation.Ends]
  | snapshot o scope => simp [CellMap.apply, Operation.Sets, Operation.Ends]
  | clearRun runId => simp [CellMap.apply, Operation.Sets, Operation.Ends]
  | clearWorkflow agentId => simp [CellMap.apply, Operation.Sets, Operation.Ends]
  | set o scope key value =>
    by_cases hn : o.Names scope
    · by_cases hc : c = o.cell scope key <;>
        simp [CellMap.apply, Operation.Sets, Operation.Ends, hn, hc, eq_comm]
    · simp [CellMap.apply, Operation.Sets, Operation.Ends, hn]
  | delete o scope key =>
    by_cases hn : o.Names scope
    · by_cases hc : c = o.cell scope key <;>
        simp [CellMap.apply, Operation.Sets, Operation.Ends, hn, hc]
    · simp [CellMap.apply, Operation.Sets, Operation.Ends, hn]

/-- A store after a history stands for the map after it. -/
theorem flat_after (history : List Operation) : (after history).flat = CellMap.after history := by
  induction history using List.reverseRecOn with
  | nil => funext ⟨scope, p, key, _⟩; cases scope <;> rfl
  | append_singleton history operation ih =>
    rw [after_concat, flat_execute, ih, CellMap.after_concat]

/-- The map holds what its history left. -/
theorem after_eq_some_iff (history : List Operation) (c : Cell) (v : Value) :
    CellMap.after history c = some v ↔ Kept c history v := by
  induction history using List.reverseRecOn with
  | nil => simp [CellMap.after, Kept]
  | append_singleton history operation ih =>
    rw [CellMap.after_concat, apply_eq_some_iff, ih]
    exact (latest_concat history operation v).symm

/-- **The store is one flat map.** After any history of operations, whoever gave them, the store
stands for the map to which the same operations were applied, and answers the next operation from it.
The map holds in every cell the value of the last set that was not ended since by another set, a
delete or a clear of the partition. An operation that fails leaves the store as it is. -/
theorem answers_of_history (history : List Operation) (operation : Operation) :
    (after history).flat = CellMap.after history ∧
      (CellMap.after history).Answers operation ((after history).execute operation).1 ∧
      (∀ c v, CellMap.after history c = some v ↔ Kept c history v) ∧
      ∀ e, ((after history).execute operation).1 = .failed e →
        ((after history).execute operation).2 = after history := by
  refine ⟨flat_after history, ?_, after_eq_some_iff history, fun e => execute_of_failed⟩
  rw [← flat_after history]
  exact answers_execute _ operation

/-- Two runs of one workflow share its variables, and have their own besides. -/
example :
    let store := after [.set (.named "agent" "run-a") .workflow "name" (.string "shared"),
      .set (.named "agent" "run-a") .run "count" (.string "own")]
    (store.execute (.get (.named "agent" "run-b") .workflow "name")).1 =
        .found (some (.string "shared")) ∧
      (store.execute (.get (.named "agent" "run-b") .run "count")).1 = .found none := by
  cbv

end VariableStore

end FlowEngine
