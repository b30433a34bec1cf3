import FlowEngine.Codec.Record

/-!
# Traces

A trace ties the node executions of one run together: it names the workflow, the run and the
current step. Traces of later steps are derived from earlier ones by pure functions, so derivations
from one trace cannot disturb each other.

## Main definitions

* `Trace`: the trace of an envelope.
* `Trace.next`, `Trace.child`, `Trace.retry`, `Trace.withStep`: derived traces.
* `Codec.trace`: its representation.
-/

namespace FlowEngine

/-- Where an envelope belongs. -/
structure Trace where
  /-- The workflow. -/
  agentId : String
  /-- The run of the workflow. -/
  runId : String
  /-- The node that spawned this step, if one did. -/
  parentId : Option String
  /-- The current node. -/
  nodeId : String
  /-- A readable label. -/
  step : String
  /-- How often the step has been tried, starting from one. -/
  attempt : UInt32
  deriving DecidableEq

namespace Trace

/-- The trace of a run's first step. -/
def start (agentId runId nodeId : String) : Trace :=
  ⟨agentId, runId, none, nodeId, nodeId, 1⟩

/-- The same trace with another label. -/
def withStep (t : Trace) (step : String) : Trace := { t with step }

/-- The trace of a sibling step: the parent stays and counting starts anew. -/
def next (t : Trace) (nodeId : String) : Trace := { t with nodeId, step := nodeId, attempt := 1 }

/-- The label of a child. -/
def childStep (nodeId : String) (index : Nat) : String := nodeId ++ "[" ++ toString index ++ "]"

/-- The trace of a numbered child of the current step. -/
def child (t : Trace) (nodeId : String) (index : Nat) : Trace :=
  { t with parentId := some t.nodeId, nodeId, step := childStep nodeId index, attempt := 1 }

/-- The greatest number of attempts that is counted. -/
def greatestAttempt : UInt32 := 4294967295

/-- The trace of another attempt at the same step. -/
def retry (t : Trace) : Trace :=
  { t with attempt := if t.attempt = greatestAttempt then greatestAttempt else t.attempt + 1 }

theorem toNat_attempt_le (t : Trace) : t.attempt.toNat ≤ UInt32.size - 1 :=
  Nat.le_pred_of_lt t.attempt.toNat_lt

/-- Attempts are counted up to the greatest number of 32 bits. -/
theorem toNat_attempt_retry (t : Trace) :
    t.retry.attempt.toNat = min (t.attempt.toNat + 1) (UInt32.size - 1) := by
  have hgreatest : greatestAttempt.toNat = UInt32.size - 1 := rfl
  change (if t.attempt = greatestAttempt then greatestAttempt else t.attempt + 1).toNat = _
  by_cases h : t.attempt = greatestAttempt
  · rw [if_pos h, h, hgreatest, Nat.min_eq_right (Nat.le_succ _)]
  · have hne : t.attempt.toNat ≠ UInt32.size - 1 := by
      rwa [← hgreatest, ne_eq, UInt32.toNat_inj]
    have hsucc : t.attempt.toNat + 1 ≤ UInt32.size - 1 := Nat.lt_of_le_of_ne t.toNat_attempt_le hne
    rw [if_neg h, UInt32.toNat_add, UInt32.toNat_one, Nat.min_eq_left hsucc]
    exact Nat.mod_eq_of_lt (Nat.lt_of_le_pred (by decide) hsucc)

@[simp] theorem agentId_next (t : Trace) (n : String) : (t.next n).agentId = t.agentId := rfl

@[simp] theorem runId_next (t : Trace) (n : String) : (t.next n).runId = t.runId := rfl

@[simp] theorem agentId_child (t : Trace) (n : String) (i : Nat) :
    (t.child n i).agentId = t.agentId := rfl

@[simp] theorem runId_child (t : Trace) (n : String) (i : Nat) :
    (t.child n i).runId = t.runId := rfl

end Trace

/-- Traces as records. -/
def Codec.trace : Codec Trace :=
  record "Trace"
    (.cons ⟨"agent_id", text, none⟩ <| .cons ⟨"run_id", text, none⟩ <|
      .cons ⟨"parent_id", optional text, none⟩ <| .cons ⟨"node_id", text, none⟩ <|
      .cons ⟨"step", text, none⟩ <| .cons ⟨"attempt", uint32, none⟩ .nil)
    (fun (agentId, runId, parentId, nodeId, step, attempt, _) =>
      ⟨agentId, runId, parentId, nodeId, step, attempt⟩)
    fun t => (t.agentId, t.runId, t.parentId, t.nodeId, t.step, t.attempt, ())

end FlowEngine
