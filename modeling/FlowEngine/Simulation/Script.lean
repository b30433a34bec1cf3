import FlowEngine.Node.Config
import FlowEngine.Time.Duration

/-!
# Scripts

What a simulated workflow does when it is called: answers that it gives at once, answers that it
gives later, and how the start of the workflow itself ends.

## Main definitions

* `Answer`, `LateAnswer`: answers.
* `Script`: the behaviour of a workflow.
* `Scripts.find`: the script of a target.
-/

namespace FlowEngine

/-- An answer of a simulated workflow. Without data of its own it gives the data of the call back. -/
structure Answer where
  data : Option Value
  status : String

/-- What a simulated workflow does some time after it was called. -/
inductive LateAnswer where
  /-- It answers. -/
  | answer (a : Answer)
  /-- It runs a pipeline on the call. -/
  | run (pipeline : List NodeConfig)

/-- The behaviour of a simulated workflow. -/
structure Script where
  /-- Answers that it gives before its start is acknowledged. -/
  early : List Answer := []
  /-- What it does later. -/
  late : List (Duration × LateAnswer) := []
  /-- How long its start takes. -/
  delay : Duration := ⟨0⟩
  /-- Why its start fails, if it does. -/
  failure : Option String := none

/-- The script of a target. One for all targets stands under an asterisk; without a script a
workflow starts at once and never answers. -/
def Script.find (scripts : Dict Script) (target : String) : Script :=
  ((scripts.get? target).or (scripts.get? "*")).getD {}

end FlowEngine
