import FlowEngine.Registry
import FlowEngine.Tally

/-!
# Runs

A run sends an envelope through a chain of nodes. Envelopes wait in a queue; executions start from
its front, as many at once as a limit allows. What an execution emits joins the back of the queue
for the next stage, and what has passed the last stage is an output.

Executions take time, so in general a run is a state that is filled up and then waits for one of its
executions to finish. If executions finish at once, they do so in the order in which they were
started, and `RunState.runReady` is the whole run.

## Main definitions

* `RunResult`: what has come of a run.
* `RunState`: a run under way.
* `RunState.fill`, `RunState.settle`: starting executions, and taking in the outcome of one.
* `RunState.runReady`: a run whose executions finish at once.

## Main results

* `RunState.count_fill`: starting executions neither loses nor adds work.
-/

namespace FlowEngine

/-- What has come of a run. -/
structure RunResult where
  /-- Envelopes that have passed the last stage. -/
  outputs : List (Envelope Value) := []
  /-- Executions that have failed. -/
  failures : List NodeFailure := []
  /-- The number of executions that have emitted nothing yet. -/
  pending : Nat := 0
  /-- The number of executions. -/
  executions : Nat := 0

/-- Whether nothing has failed. -/
def RunResult.isSuccess (r : RunResult) : Bool := r.failures.isEmpty

/-- A run through a number of stages, with executions of type `φ` under way. -/
structure RunState (stages : Nat) (φ : Type) where
  /-- Envelopes with the stage that they have to pass next. -/
  queue : List (Nat × Envelope Value)
  /-- Executions with their stages, in the order in which they were started. -/
  running : List (Fin stages × φ) := []
  result : RunResult := {}

namespace RunState

variable {stages : Nat} {φ σ : Type}

/-- A run that has not begun. -/
def start (input : Envelope Value) : RunState stages φ := { queue := [(0, input)] }

/-- Starts executions from a queue. -/
def fillFrom (limit : Nat) (begin : Fin stages → Envelope Value → φ) :
    List (Nat × Envelope Value) → List (Fin stages × φ) → RunResult → RunState stages φ
  | [], running, result => ⟨[], running, result⟩
  | (stage, e) :: queue, running, result =>
    if running.length < limit then
      if h : stage < stages then
        fillFrom limit begin queue (running ++ [(⟨stage, h⟩, begin ⟨stage, h⟩ e)]) result
      else fillFrom limit begin queue running { result with outputs := result.outputs ++ [e] }
    else ⟨(stage, e) :: queue, running, result⟩

/-- Starts executions as far as the limit allows, of which zero counts as one. Envelopes past the
last stage take up no place. -/
def fill (limit : Nat) (begin : Fin stages → Envelope Value → φ) (r : RunState stages φ) :
    RunState stages φ :=
  fillFrom (max 1 limit) begin r.queue r.running r.result

/-- Takes in the outcome of an execution of a stage. -/
def settle (r : RunState stages φ) (stage : Nat) (outcome : Except NodeFailure NodeOutput) :
    RunState stages φ :=
  let counted := { r.result with executions := r.result.executions + 1 }
  match outcome with
  | .ok (.single e) => { r with queue := r.queue ++ [(stage + 1, e)], result := counted }
  | .ok (.many es) =>
    { r with queue := r.queue ++ es.map fun e => (stage + 1, e), result := counted }
  | .ok .pending => { r with result := { counted with pending := counted.pending + 1 } }
  | .error failure =>
    { r with result := { counted with failures := counted.failures ++ [failure] } }

/-- How many envelopes have to pass a stage next or are passing it. -/
def count (r : RunState stages φ) (stage : Nat) : Nat :=
  r.running.countP (fun x => x.1.val == stage) + r.queue.countP fun x => x.1 == stage

theorem count_fillFrom (limit : Nat) (begin : Fin stages → Envelope Value → φ)
    (queue : List (Nat × Envelope Value)) (running : List (Fin stages × φ)) (result : RunResult)
    {stage : Nat} (h : stage < stages) :
    (fillFrom limit begin queue running result).count stage =
      count ⟨queue, running, result⟩ stage := by
  induction queue generalizing running result with
  | nil => rfl
  | cons x queue ih =>
    obtain ⟨s, e⟩ := x
    unfold fillFrom
    split
    · split
      · rw [ih]
        simp only [count, List.countP_append, List.countP_cons, List.countP_nil]
        omega
      · rename_i hs
        rw [ih]
        have hne : (s == stage) = false := beq_eq_false_iff_ne.2 (by omega)
        simp [count, hne]
    · rfl

theorem count_fill (limit : Nat) (begin : Fin stages → Envelope Value → φ)
    (r : RunState stages φ) {stage : Nat} (h : stage < stages) :
    (r.fill limit begin).count stage = r.count stage :=
  count_fillFrom _ begin r.queue r.running r.result h

theorem count_settle_of_le (r : RunState stages φ) {s t : Nat} (h : t ≤ s)
    (outcome : Except NodeFailure NodeOutput) : (r.settle s outcome).count t = r.count t := by
  have hne : (s + 1 == t) = false := beq_eq_false_iff_ne.2 (by omega)
  rcases outcome with failure | (e | es | _)
  · rfl
  · simp [settle, count, List.countP_append, hne]
  · simp [settle, count, List.countP_append, List.countP_map, Function.comp_def, hne]
  · rfl

/-- The work that is left, by stage. -/
def tally (r : RunState stages φ) : Tally stages := .ofCounts r.count stages 0

/-- Whichever execution finishes, and with whatever outcome, less work is left: what it emits has
passed its stage. -/
theorem tally_settle_lt (limit : Nat) (begin : Fin stages → Envelope Value → φ)
    (r : RunState stages φ) {s : Fin stages} {x : φ} {before after : List (Fin stages × φ)}
    (h : (r.fill limit begin).running = before ++ (s, x) :: after)
    (outcome : Except NodeFailure NodeOutput) :
    Tally.Lt stages
      (({ r.fill limit begin with running := before ++ after }).settle s outcome).tally
      r.tally := by
  have step (t : Nat) (ht : t ≤ s.val) :
      (({ r.fill limit begin with running := before ++ after }).settle s outcome).count t +
        (if s.val = t then 1 else 0) = r.count t := by
    rw [count_settle_of_le _ ht, ← count_fill limit begin r (by omega : t < stages)]
    simp only [count, h, List.countP_append, List.countP_cons]
    by_cases hs : s.val = t
    · simp [hs]
      omega
    · simp [hs]
  refine Tally.ofCounts_lt (s := s.val) (fun t ht => ?_) ?_ stages 0 (Nat.zero_le _) (by omega)
  · have := step t (by omega)
    rw [if_neg (by omega)] at this
    omega
  · have := step s.val (Nat.le_refl _)
    rw [if_pos rfl] at this
    omega

/-- A run whose executions finish at once, with what is left of a state that they work on. The
execution that was started first finishes first. -/
def runReady (r : RunState stages (Envelope Value)) (limit : Nat)
    (execute : Fin stages → Envelope Value → σ → Except NodeFailure NodeOutput × σ) (s : σ) :
    RunResult × σ :=
  match _h : (r.fill limit fun _ e => e).running with
  | [] => ((r.fill limit fun _ e => e).result, s)
  | (stage, e) :: rest =>
    let (outcome, s) := execute stage e s
    runReady (({ r.fill limit fun _ e => e with running := rest }).settle stage outcome) limit
      execute s
termination_by r.tally
decreasing_by exact @tally_settle_lt stages _ limit (fun _ e => e) r stage e [] rest _h _

end RunState

end FlowEngine
