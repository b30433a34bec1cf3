import FlowEngine.Text.Natural
import FlowEngine.Trace
import Mathlib.Data.List.DropRight

/-!
# What derivations add up to

A trace is derived from another one step by step, and each step writes some of its fields and keeps the
others. Fields are written by different steps: the parent may go back to one long ago, while the node has
changed many times and counting has begun anew. This file says what a whole history of derivations makes
of a trace without going through it, by what came last in it: the last step that moved on to a node, the
last one that gave a label, the last one that left a node for a child of it.

Children are told apart by their labels alone. A label is a node, an opening bracket, an index and a closing
bracket, and the node may have brackets in its own name. But what follows the last opening bracket of a
label is digits and a closing one, so it can be read in one way only.

## Main definitions

* `Trace.Derivation`, `Trace.derive`: one derivation, and a history of them.
* `Trace.currentNode`, `Trace.currentLabel`: the node and the label that a history ends with.
* `Trace.beforeChild`, `Trace.sinceMove`: the parts of a history that the other fields go by.
* `Trace.Derived`: what a history makes of a trace, field by field.

## Main results

* `Trace.childStep_inj`: a label says which child it belongs to.
* `Trace.derive_of_sets`: fields that are written without regard to the rest of the trace.
* `Trace.derivations_add_up`: all fields, and the labels of children.
-/

namespace FlowEngine

/-- What follows the last place where a predicate fails. -/
theorem rtakeWhile_append_cons {α : Type} {p : α → Bool} {before after : List α} {a : α} (ha : ¬ p a)
    (hafter : ∀ b ∈ after, p b) : (before ++ a :: after).rtakeWhile p = after := by
  have hreverse : ∀ b ∈ after.reverse, p b := fun b hb => hafter b (List.mem_reverse.mp hb)
  rw [List.rtakeWhile, List.reverse_append, List.reverse_cons, List.append_assoc,
    List.takeWhile_append_of_pos hreverse, List.singleton_append, List.takeWhile_cons_of_neg ha,
    List.append_nil, List.reverse_reverse]

namespace Trace

/-! ## Labels of children -/

theorem toList_childStep (nodeId : String) (index : Nat) :
    (childStep nodeId index).toList = nodeId.toList ++ '[' :: ((toString index).toList ++ [']']) := by
  simp [childStep]

/-- The index is what follows the last opening bracket. -/
theorem rtakeWhile_childStep (nodeId : String) (index : Nat) :
    (childStep nodeId index).toList.rtakeWhile (· != '[') = (toString index).toList ++ [']'] := by
  rw [toList_childStep]
  refine rtakeWhile_append_cons (by decide) ?_
  rw [List.forall_mem_append, List.forall_mem_singleton]
  refine ⟨fun c hc => ?_, by decide⟩
  have hdigit := Text.isDigit_toString index c hc
  rw [bne_iff_ne]
  rintro rfl
  exact absurd hdigit (by decide)

/-- **A label says which child it belongs to.** -/
theorem childStep_inj {nodeId nodeId' : String} {index index' : Nat} :
    childStep nodeId index = childStep nodeId' index' ↔ nodeId = nodeId' ∧ index = index' := by
  constructor
  · intro h
    have hdigits : (toString index).toList ++ [']'] = (toString index').toList ++ [']'] := by
      rw [← rtakeWhile_childStep nodeId, ← rtakeWhile_childStep nodeId', h]
    obtain rfl : index = index' :=
      Text.toString_inj.mp (String.toList_inj.mp (List.append_cancel_right hdigits))
    have hnodes := congrArg String.toList h
    rw [toList_childStep, toList_childStep] at hnodes
    exact ⟨String.toList_inj.mp (List.append_cancel_right hnodes), rfl⟩
  · rintro ⟨rfl, rfl⟩
    rfl

/-! ## Histories -/

/-- How a trace is obtained from another one. -/
inductive Derivation where
  | next (nodeId : String)
  | child (nodeId : String) (index : Nat)
  | retry
  | withStep (step : String)
  deriving DecidableEq

namespace Derivation

/-- The trace that is obtained. -/
def apply (t : Trace) : Derivation → Trace
  | next nodeId => t.next nodeId
  | child nodeId index => t.child nodeId index
  | retry => t.retry
  | withStep step => t.withStep step

/-- The node that is moved on to. -/
def node? : Derivation → Option String
  | next nodeId => some nodeId
  | child nodeId _ => some nodeId
  | retry | withStep _ => none

/-- The label that is given. Another attempt keeps the label. -/
def label? : Derivation → Option String
  | next nodeId => some nodeId
  | child nodeId index => some (childStep nodeId index)
  | retry => none
  | withStep step => some step

/-- A node is left for a child of it. -/
def isChild : Derivation → Bool
  | child _ _ => true
  | next _ | retry | withStep _ => false

end Derivation

/-- The trace after a history of derivations. -/
def derive (t : Trace) (history : List Derivation) : Trace := history.foldl Derivation.apply t

theorem derive_concat (t : Trace) (history : List Derivation) (d : Derivation) :
    t.derive (history ++ [d]) = d.apply (t.derive history) := by
  rw [derive, List.foldl_append]
  rfl

/-- The node that was last moved on to. -/
def currentNode (t : Trace) (history : List Derivation) : String :=
  (history.filterMap Derivation.node?).getLast?.getD t.nodeId

/-- The label that was last given. -/
def currentLabel (t : Trace) (history : List Derivation) : String :=
  (history.filterMap Derivation.label?).getLast?.getD t.step

/-- What came before the last child, if there was one. -/
def beforeChild (history : List Derivation) : List Derivation := (history.rdropWhile (!·.isChild)).dropLast

/-- What has come since a node was last moved on to, or all of the history if none was. -/
def sinceMove (history : List Derivation) : List Derivation := history.rtakeWhile (·.node?.isNone)

/-- What a history makes of a trace. -/
structure Derived (t : Trace) (history : List Derivation) (u : Trace) : Prop where
  agentId : u.agentId = t.agentId
  runId : u.runId = t.runId
  /-- The parent is the node that was current just before the last child. -/
  parentId : u.parentId =
    if history.any Derivation.isChild then some (t.currentNode (beforeChild history)) else t.parentId
  nodeId : u.nodeId = t.currentNode history
  step : u.step = t.currentLabel history
  /-- The last move was the first attempt at its node, and each retry since is one more, up to the greatest
  number that is counted. -/
  attempt : u.attempt.toNat =
    min ((if history.any (·.node?.isSome) then 1 else t.attempt.toNat) + (sinceMove history).count .retry)
      (UInt32.size - 1)

/-! ## Field by field -/

/-- A field that some derivations set and the others keep is as the last of those has set it. -/
theorem derive_of_sets {α : Type} {field : Trace → α} {sets? : Derivation → Option α}
    (h : ∀ t d, field (Derivation.apply t d) = (sets? d).getD (field t)) (t : Trace)
    (history : List Derivation) :
    field (t.derive history) = (history.filterMap sets?).getLast?.getD (field t) := by
  -- from the end of the history, since a derivation sees what those before it have left
  induction history using List.reverseRecOn with
  | nil => rfl
  | append_singleton history d ih =>
    rw [derive_concat, h, ih, List.filterMap_append, List.getLast?_append]
    cases hsets : sets? d with
    | none => simp [hsets]
    | some a => simp [hsets]

/-- A field that all derivations keep. -/
theorem derive_of_kept {α : Type} {field : Trace → α} (h : ∀ t d, field (Derivation.apply t d) = field t)
    (t : Trace) (history : List Derivation) : field (t.derive history) = field t := by
  have hsets : ∀ t (d : Derivation), field (d.apply t) = (none : Option α).getD (field t) := h
  simpa using derive_of_sets hsets t history

theorem agentId_derive (t : Trace) (history : List Derivation) : (t.derive history).agentId = t.agentId :=
  derive_of_kept (fun _ d => by cases d <;> rfl) t history

theorem runId_derive (t : Trace) (history : List Derivation) : (t.derive history).runId = t.runId :=
  derive_of_kept (fun _ d => by cases d <;> rfl) t history

theorem nodeId_derive (t : Trace) (history : List Derivation) :
    (t.derive history).nodeId = t.currentNode history :=
  derive_of_sets (fun _ d => by cases d <;> rfl) t history

theorem step_derive (t : Trace) (history : List Derivation) :
    (t.derive history).step = t.currentLabel history :=
  derive_of_sets (fun _ d => by cases d <;> rfl) t history

theorem parentId_apply (t : Trace) (d : Derivation) :
    (d.apply t).parentId = if d.isChild then some t.nodeId else t.parentId := by
  cases d <;> rfl

theorem beforeChild_concat (history : List Derivation) (d : Derivation) :
    beforeChild (history ++ [d]) = if d.isChild then history else beforeChild history := by
  rw [beforeChild, beforeChild, List.rdropWhile_concat]
  cases d.isChild with
  | true => exact List.dropLast_concat
  | false => rfl

theorem parentId_derive (t : Trace) (history : List Derivation) :
    (t.derive history).parentId =
      if history.any Derivation.isChild then some (t.currentNode (beforeChild history))
      else t.parentId := by
  induction history using List.reverseRecOn with
  | nil => rfl
  | append_singleton history d ih =>
    rw [derive_concat, parentId_apply, List.any_append, List.any_cons, List.any_nil, Bool.or_false,
      beforeChild_concat]
    cases hchild : d.isChild with
    | true => simp [nodeId_derive]
    | false => simpa using ih

theorem sinceMove_concat (history : List Derivation) (d : Derivation) :
    sinceMove (history ++ [d]) = if d.node?.isNone then sinceMove history ++ [d] else [] :=
  List.rtakeWhile_concat _ history d

/-- Whoever moves on to a node begins to count anew. -/
theorem attempt_apply_of_isSome {d : Derivation} (h : d.node?.isSome) (t : Trace) :
    (d.apply t).attempt = 1 := by
  cases d with
  | next nodeId => rfl
  | child nodeId index => rfl
  | retry => cases h
  | withStep step => cases h

/-- Of all other derivations only retries count. -/
theorem attempt_apply_of_isNone {d : Derivation} (h : d.node?.isNone) (t : Trace) :
    (d.apply t).attempt.toNat = min (t.attempt.toNat + [d].count .retry) (UInt32.size - 1) := by
  cases d with
  | next nodeId => cases h
  | child nodeId index => cases h
  | retry => exact toNat_attempt_retry t
  | withStep step => exact (Nat.min_eq_left t.toNat_attempt_le).symm

theorem attempt_derive (t : Trace) (history : List Derivation) :
    (t.derive history).attempt.toNat =
      min ((if history.any (·.node?.isSome) then 1 else t.attempt.toNat) + (sinceMove history).count .retry)
        (UInt32.size - 1) := by
  induction history using List.reverseRecOn with
  | nil => exact (Nat.min_eq_left t.toNat_attempt_le).symm
  | append_singleton history d ih =>
    rw [derive_concat, List.any_append, List.any_cons, List.any_nil, Bool.or_false, sinceMove_concat]
    cases hnode : d.node? with
    | some nodeId =>
      rw [attempt_apply_of_isSome (by rw [hnode]; rfl)]
      simp
    | none =>
      rw [attempt_apply_of_isNone (by rw [hnode]; rfl), ih]
      simp only [Option.isSome_none, Option.isNone_none, Bool.or_false, if_true, List.count_append]
      -- what was lost at the bound before is lost at it now
      omega

theorem derived_derive (t : Trace) (history : List Derivation) : Derived t history (t.derive history) where
  agentId := agentId_derive t history
  runId := runId_derive t history
  parentId := parentId_derive t history
  nodeId := nodeId_derive t history
  step := step_derive t history
  attempt := attempt_derive t history

/-- The fields leave nothing open. -/
theorem Derived.unique {t u v : Trace} {history : List Derivation} (hu : Derived t history u)
    (hv : Derived t history v) : u = v := by
  have hattempt : u.attempt = v.attempt := UInt32.toNat_inj.mp (hu.attempt.trans hv.attempt.symm)
  cases u
  cases v
  rw [Trace.mk.injEq]
  exact ⟨hu.agentId.trans hv.agentId.symm, hu.runId.trans hv.runId.symm,
    hu.parentId.trans hv.parentId.symm, hu.nodeId.trans hv.nodeId.symm, hu.step.trans hv.step.symm, hattempt⟩

/-- **Derivations add up.** What a history makes of a trace is the one trace of the same workflow and run
whose node is the last one that was moved on to, by a sibling step or as a child, whose parent is the node
that was current just before the last child, and whose label is the last one that was given; its attempts
are counted from one at the last move, else from those of the trace at the beginning, up to the greatest
number of 32 bits. Whatever no derivation of the history has written is as it was. And two children have the
same label only if they have the same node and the same index, whatever the texts of the nodes are. -/
theorem derivations_add_up :
    (∀ (t : Trace) (history : List Derivation) (u : Trace), u = t.derive history ↔ Derived t history u) ∧
      ∀ (t u : Trace) (nodeId nodeId' : String) (index index' : Nat),
        (t.child nodeId index).step = (u.child nodeId' index').step ↔ nodeId = nodeId' ∧ index = index' := by
  refine ⟨fun t history u => ⟨?_, fun h => h.unique (derived_derive t history)⟩,
    fun _ _ _ _ _ _ => childStep_inj⟩
  rintro rfl
  exact derived_derive t history

example : (start "orders" "run-1" "split").derive
    [.next "fetch", .child "parse" 3, .retry, .next "store", .retry, .withStep "again", .retry] =
      ⟨"orders", "run-1", some "fetch", "store", "again", 3⟩ := by
  decide

end Trace

end FlowEngine
