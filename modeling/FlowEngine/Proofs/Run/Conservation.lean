import FlowEngine.Proofs.Run.Progress
import Mathlib.Algebra.BigOperators.Group.Multiset.Basic
import Mathlib.Order.OrderIsoNat
import Mathlib.Tactic.Ring

/-!
# No work is lost or done twice

Executions fan out to any width, absorb envelopes and fail, and only so many of them may be under way
at once. A branch would be lost without a trace if an envelope were not queued, if the run ended with
a queue, or if it waited for ever for a place. None of this happens, whatever the nodes do.

Where an envelope is can be told from the stage that it has to pass: it is executed there once, or
still in line for it; past the last stage it is an output. So everything that has come to a stage is
accounted for, and from this the numbers follow: an execution that emits `w` envelopes makes one
branch into `w` of them, and a branch ends as an output, as a failure or pending.

## Main definitions

* `RunState.line`: what is under way or waits.
* `RunState.arrivals`, `RunState.executed`: what has come to the stages, and what was executed there.
* `RunState.singles`, `RunState.widths`: how executions have gone on.

## Main results

* `RunState.atStage_arrivals_perm`, `RunState.passed_arrivals_perm`: where every envelope is.
* `RunState.branches_eq`, `RunState.executions_eq`: how many branches and executions there are.
* `RunState.work_conserved`: all of this, and that a run ends with nothing left to do.
-/

namespace FlowEngine

/-- One envelope goes on. -/
def Outcome.isSingle : Outcome → Bool
  | .ok (.single _) => true
  | _ => false

/-- The envelope is absorbed. -/
def Outcome.isPending : Outcome → Bool
  | .ok .pending => true
  | _ => false

/-- The failure, if it is one. -/
def Outcome.failure? : Outcome → Option NodeFailure
  | .error failure => some failure
  | _ => none

/-- Into how many branches a fan-out leads. -/
def Outcome.width? : Outcome → Option Nat
  | .ok (.many es) => some es.length
  | _ => none

namespace RunState

variable {stages limit : Nat} {input : Envelope Value} {log : List (Finished stages)}
  {r : RunState stages (Envelope Value)}

/-- What is under way or waits, with the stage that it has to pass. -/
def line (r : RunState stages (Envelope Value)) : List (Nat × Envelope Value) :=
  (r.running.map fun x => (x.1.val, x.2)) ++ r.queue

/-- The envelopes that have to pass a stage. -/
def atStage (stage : Nat) (xs : List (Nat × Envelope Value)) : List (Envelope Value) :=
  (xs.filter fun x => x.1 = stage).map Prod.snd

/-- What has come to the stages: the input to the first one, and what an execution has emitted to the
one after it. -/
def arrivals (input : Envelope Value) (log : List (Finished stages)) :
    List (Nat × Envelope Value) :=
  (0, input) :: log.flatMap fun c => c.outcome.emitted.map fun e => (c.stage.val + 1, e)

/-- What was executed, with its stage. -/
def executed (log : List (Finished stages)) : List (Nat × Envelope Value) :=
  log.map fun c => (c.stage.val, c.input)

/-- How many executions have emitted one envelope. -/
def singles (log : List (Finished stages)) : Nat := log.countP fun c => c.outcome.isSingle

/-- The widths of all fan-outs. -/
def widths (log : List (Finished stages)) : List Nat := log.filterMap fun c => c.outcome.width?

/-! ## Where every envelope is -/

/-- The account of one stage. -/
def stageAccount {stage : Nat} (h : stage < stages) :
    Account stages (Multiset (Envelope Value)) where
  waiting t e := if t = stage then {e} else 0
  result _ := 0
  result_nil := rfl
  result_append _ _ := (add_zero 0).symm
  result_output t e ht := by rw [if_neg (by omega)]

/-- The account of what has passed the last stage. -/
def outputAccount (stages : Nat) : Account stages (Multiset (Envelope Value)) where
  waiting t e := if stages ≤ t then {e} else 0
  result r := r.outputs
  result_nil := rfl
  result_append a b := (Multiset.coe_add a.outputs b.outputs).symm
  result_output t e ht := by rw [if_pos ht]; rfl

theorem sum_stageAccount {stage : Nat} (h : stage < stages) (xs : List (Nat × Envelope Value)) :
    (stageAccount h).sum xs = (atStage stage xs : Multiset (Envelope Value)) := by
  induction xs with
  | nil => rfl
  | cons x xs ih =>
    rw [Account.sum_cons, ih]
    by_cases hx : x.1 = stage
    · simp [stageAccount, atStage, hx]
    · simp [stageAccount, atStage, hx]

theorem sum_outputAccount (xs : List (Nat × Envelope Value)) :
    (outputAccount stages).sum xs = (passed stages xs : Multiset (Envelope Value)) := by
  induction xs with
  | nil => rfl
  | cons x xs ih =>
    rw [Account.sum_cons, ih]
    by_cases hx : stages ≤ x.1
    · simp [outputAccount, passed, hx]
    · simp [outputAccount, passed, hx]

end RunState

namespace Account

open RunState

variable {stages limit : Nat} {input : Envelope Value} {log : List (Finished stages)}
  {r : RunState stages (Envelope Value)} {α : Type} [AddCommMonoid α] (a : Account stages α)

theorem sum_line (r : RunState stages (Envelope Value)) :
    a.sum r.line + a.result r.result = a.total r := by
  rw [line, sum_append, total]

theorem sum_executed (log : List (Finished stages)) :
    a.sum (executed log) = (log.map fun c => a.waiting c.stage c.input).sum := by
  simp [sum, executed, Function.comp_def]

/-- What has arrived, with what the outcomes add to the result. -/
theorem sum_arrivals (input : Envelope Value) (log : List (Finished stages)) :
    a.sum (arrivals input log) + (log.map fun c => a.result (.ofOutcome c.outcome)).sum =
      a.waiting 0 input + (log.map fun c => a.gain c.stage c.outcome).sum := by
  rw [arrivals, sum_cons, add_assoc]
  congr 1
  induction log with
  | nil => simp
  | cons c log ih =>
    rw [List.flatMap_cons, sum_append, List.map_cons, List.map_cons, List.sum_cons, List.sum_cons,
      ← ih, gain]
    abel

/-- **What has arrived is in line, has been executed, or is in the result.** -/
theorem sum_line_filled (h : Reaches limit input log r) :
    a.sum (r.filled limit).line + a.result (r.filled limit).result + a.sum (executed log) =
      a.sum (arrivals input log) + (log.map fun c => a.result (.ofOutcome c.outcome)).sum := by
  rw [a.sum_line, a.total_filled, a.sum_executed, a.total_reaches h, a.sum_arrivals]

end Account

namespace RunState

variable {stages limit : Nat} {input : Envelope Value} {log : List (Finished stages)}
  {r : RunState stages (Envelope Value)}

/-- Everything that has come to a stage has been executed there once, or is in line for it. -/
theorem atStage_arrivals_perm (h : Reaches limit input log r) {stage : Nat} (hs : stage < stages) :
    (atStage stage (arrivals input log)).Perm
      (atStage stage (executed log) ++ atStage stage (r.filled limit).line) := by
  have key := (stageAccount hs).sum_line_filled h
  simp only [sum_stageAccount] at key
  rw [← Multiset.coe_eq_coe, ← Multiset.coe_add, add_comm]
  simpa [stageAccount] using key.symm

/-- Everything that has passed the last stage is an output once, or waits to become one. -/
theorem passed_arrivals_perm (h : Reaches limit input log r) :
    (passed stages (arrivals input log)).Perm
      ((r.filled limit).result.outputs ++ passed stages (r.filled limit).line) := by
  have executed_nil : passed stages (executed log) = [] := by
    simp [passed, executed, List.filter_map, Function.comp_def]
  have outcomes_nil : (log.map fun c => (outputAccount stages).result (.ofOutcome c.outcome)).sum =
      0 := by
    simp [outputAccount]
  have key := (outputAccount stages).sum_line_filled h
  simp only [sum_outputAccount, executed_nil, outcomes_nil] at key
  rw [← Multiset.coe_eq_coe, ← Multiset.coe_add, add_comm]
  simpa [outputAccount] using key.symm

/-! ## How many branches there are -/

/-- The account of the branches: everything in line is one, and so is every end of one. -/
def branchAccount (stages : Nat) : Account stages Int where
  waiting _ _ := 1
  result r := r.outputs.length + r.failures.length + r.pending
  result_nil := rfl
  result_append a b := by
    simp only [RunResult.outputs_append, RunResult.failures_append, RunResult.pending_append,
      List.length_append, Nat.cast_add]
    ring
  result_output _ _ _ := rfl

/-- Starting executions adds nothing to the result but outputs. -/
theorem result_filled (limit : Nat) (r : RunState stages (Envelope Value)) :
    (r.filled limit).result.failures = r.result.failures ∧
      (r.filled limit).result.pending = r.result.pending ∧
      (r.filled limit).result.executions = r.result.executions := by
  obtain ⟨taken, rest, -, hf⟩ := r.filled_eq limit
  rw [hf]
  exact ⟨List.append_nil _, rfl, rfl⟩

/-- The result counts what has happened: it holds the failures in their order, and the numbers of
absorbed envelopes and of executions. -/
theorem result_eq (h : Reaches limit input log r) :
    (r.filled limit).result.failures = log.filterMap (fun c => c.outcome.failure?) ∧
      (r.filled limit).result.pending = log.countP (fun c => c.outcome.isPending) ∧
      (r.filled limit).result.executions = log.length := by
  obtain ⟨hf, hp, he⟩ := r.result_filled limit
  rw [hf, hp, he]
  clear hf hp he
  induction h with
  | start => exact ⟨rfl, rfl, rfl⟩
  | @next log c r r' h hc ih =>
    obtain ⟨before, after, -, rfl⟩ := hc
    obtain ⟨hf, hp, he⟩ := r.result_filled limit
    simp only [settle_eq, RunResult.failures_append, RunResult.pending_append,
      RunResult.executions_append, RunResult.executions_ofOutcome, hf, hp, he, ih,
      List.filterMap_append, List.countP_append, List.length_append, List.length_singleton]
    rcases c with ⟨stage, e, failure | (e' | es | _)⟩ <;> exact ⟨rfl, rfl, trivial⟩

/-- Every execution has gone on with one envelope, has fanned out, has been absorbed or has
failed. -/
theorem executions_eq (h : Reaches limit input log r) :
    (r.filled limit).result.executions =
      singles log + (widths log).length + (r.filled limit).result.pending +
        (r.filled limit).result.failures.length := by
  obtain ⟨hf, hp, he⟩ := result_eq h
  rw [hf, hp, he]
  clear h hf hp he
  induction log with
  | nil => rfl
  | cons c log ih =>
    simp only [singles, widths, List.countP_cons, List.filterMap_cons, List.length_cons] at ih ⊢
    rcases c with ⟨stage, e, failure | (e' | es | _)⟩ <;>
      simp only [Outcome.isSingle, Outcome.width?, Outcome.isPending, Outcome.failure?,
        List.length_cons, Bool.false_eq_true, if_true, if_false] at ih ⊢ <;>
      omega

/-- **A fan-out makes one branch into as many as it is wide**, and nothing else makes or ends one
without a trace. -/
theorem branches_eq (h : Reaches limit input log r) :
    ((r.filled limit).line.length + (r.filled limit).result.outputs.length +
        (r.filled limit).result.failures.length + (r.filled limit).result.pending : Int) =
      1 + ((widths log).map fun w => (w : Int) - 1).sum := by
  have length (xs : List (Nat × Envelope Value)) : (branchAccount stages).sum xs = xs.length := by
    simp [Account.sum, branchAccount]
  have count : ((arrivals input log).length : Int) +
        (log.map fun c => (branchAccount stages).result (.ofOutcome c.outcome)).sum =
      1 + ((widths log).map fun w => (w : Int) - 1).sum + (executed log).length := by
    clear h
    induction log with
    | nil => rfl
    | cons c log ih =>
      simp only [arrivals, executed, widths, List.flatMap_cons, List.length_append, List.length_cons,
        List.map_cons, List.sum_cons, List.filterMap_cons, List.length_map] at ih ⊢
      rcases c.outcome with _ | (_ | _ | _) <;>
        simp [branchAccount, RunResult.ofOutcome, Outcome.emitted, Outcome.width?] at ih ⊢ <;>
        omega
  have key := (branchAccount stages).sum_line_filled h
  rw [length, length, length, count] at key
  simp only [branchAccount] at key
  omega

/-! ## A whole run -/

/-- A run that cannot go on has nothing under way and nothing queued. -/
theorem eq_nil_of_not_next (h : ∀ c r', ¬ Next limit r c r') :
    (r.filled limit).running = [] ∧ (r.filled limit).queue = [] := by
  have hr : (r.filled limit).running = [] := by
    refine List.eq_nil_iff_forall_not_mem.mpr fun x hx => ?_
    obtain ⟨r', hr'⟩ := exists_next hx (.ok .pending)
    exact h _ r' hr'
  exact ⟨hr, queue_fill_eq_nil r hr⟩

/-- **No work is lost or done twice.** No run goes on for ever. At any time, while executions are
being started and while one of them finishes, at most so many are under way as the limit allows, of
which zero counts as one; everything that has come to a stage has been executed there once or is in
line for it, and everything that has passed the last stage is an output once or waits to become one.
A run that cannot go on has nothing under way and nothing queued. Then everything that has come to a
stage has been executed there exactly once, everything that has passed the last one is an output
exactly once, and the numbers of executions and of branches come out. -/
theorem work_conserved (stages limit : Nat) (input : Envelope Value) :
    (¬ ∃ states : Nat → RunState stages (Envelope Value), states 0 = start input ∧
        ∀ k, ∃ c, Next limit (states k) c (states (k + 1))) ∧
      ∀ (log : List (Finished stages)) (r : RunState stages (Envelope Value)),
        Reaches limit input log r →
        r.running <+: (r.filled limit).running ∧
        (r.filled limit).running.length ≤ max 1 limit ∧
        (∀ stage < stages, (atStage stage (arrivals input log)).Perm
          (atStage stage (executed log) ++ atStage stage (r.filled limit).line)) ∧
        (passed stages (arrivals input log)).Perm
          ((r.filled limit).result.outputs ++ passed stages (r.filled limit).line) ∧
        ((∀ c r', ¬ Next limit r c r') →
          (r.filled limit).running = [] ∧ (r.filled limit).queue = [] ∧
          (∀ stage < stages,
            (atStage stage (arrivals input log)).Perm (atStage stage (executed log))) ∧
          (passed stages (arrivals input log)).Perm (r.filled limit).result.outputs ∧
          (r.filled limit).result.failures = log.filterMap (fun c => c.outcome.failure?) ∧
          (r.filled limit).result.pending = log.countP (fun c => c.outcome.isPending) ∧
          (r.filled limit).result.executions =
            singles log + (widths log).length + (r.filled limit).result.pending +
              (r.filled limit).result.failures.length ∧
          ((r.filled limit).result.outputs.length + (r.filled limit).result.failures.length +
              (r.filled limit).result.pending : Int) =
            1 + ((widths log).map fun w => (w : Int) - 1).sum) := by
  constructor
  · rintro ⟨states, -, hstep⟩
    exact (wellFounded_iff_isEmpty_descending_chain.mp (wellFounded_next limit)).elim
      ⟨states, hstep⟩
  intro log r h
  have hstage := fun stage (hs : stage < stages) => atStage_arrivals_perm h hs
  have hpassed := passed_arrivals_perm h
  refine ⟨?_, h.length_running_le, hstage, hpassed, fun hend => ?_⟩
  · obtain ⟨taken, rest, -, hf⟩ := r.filled_eq limit
    rw [hf]
    exact List.prefix_append _ _
  · obtain ⟨hr, hq⟩ := eq_nil_of_not_next hend
    have hline : (r.filled limit).line = [] := by simp [line, hr, hq]
    rw [hline] at hpassed
    have hbranches := branches_eq h
    rw [hline] at hbranches
    obtain ⟨hf, hp, -⟩ := result_eq h
    refine ⟨hr, hq, fun stage hs => ?_, by simpa [passed] using hpassed, hf, hp, executions_eq h,
      by simpa using hbranches⟩
    simpa [hline, atStage] using hstage stage hs

/-- A fan-out of three with two places: the second branch overtakes the first, which is absorbed, and
the third fans out to nothing. -/
def overtaken : List (Finished 2) :=
  [⟨0, sampleEnvelope 0, .ok (.many [sampleEnvelope 1, sampleEnvelope 2, sampleEnvelope 3])⟩,
    ⟨1, sampleEnvelope 2, .ok (.single (sampleEnvelope 4))⟩,
    ⟨1, sampleEnvelope 1, .ok .pending⟩,
    ⟨1, sampleEnvelope 3, .ok (.many [])⟩]

theorem work_conserved_overtaken :
    ∃ r, Reaches 2 (sampleEnvelope 0) overtaken r ∧ (∀ c r', ¬ Next 2 r c r') ∧
      (r.filled 2).queue = [] ∧
      [sampleEnvelope 4].Perm (r.filled 2).result.outputs ∧
      (r.filled 2).result.executions = 1 + 2 + 1 + 0 := by
  have hreach : ∃ r, Reaches 2 (sampleEnvelope 0) overtaken r ∧ (r.filled 2).running = [] ∧
      (r.filled 2).result.pending = 1 ∧ (r.filled 2).result.failures = [] :=
    ⟨_, .next (.next (.next (.next .start ⟨[], [], rfl, rfl⟩) ⟨[_], [], rfl, rfl⟩)
      ⟨[], [_], rfl, rfl⟩) ⟨[], [], rfl, rfl⟩, rfl, rfl, rfl⟩
  obtain ⟨r, hr, hend, hp, hf⟩ := hreach
  have hnext : ∀ c r', ¬ Next 2 r c r' := by
    rintro c r' ⟨before, after, h, -⟩
    simp [hend] at h
  obtain ⟨-, -, -, -, hlast⟩ := (work_conserved 2 2 (sampleEnvelope 0)).2 overtaken r hr
  obtain ⟨-, hq, -, houtputs, -, -, hexecutions, -⟩ := hlast hnext
  rw [hp, hf] at hexecutions
  exact ⟨r, hr, hnext, hq, houtputs, hexecutions⟩

end RunState

end FlowEngine
