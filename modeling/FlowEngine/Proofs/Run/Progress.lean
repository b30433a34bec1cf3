import FlowEngine.Run
import Mathlib.Algebra.BigOperators.Group.List.Basic
import Mathlib.Tactic.Abel
import Mathlib.Order.WellFounded

/-!
# How a run goes on

A run waits for its executions, and any of them may be the next to finish, with any outcome. This
file says what starting executions and taking in an outcome do to a run, and what it means for a run
to have come to a state by way of executions that have finished in some order.

## Any order, any outcome

`Reaches` leaves both to chance: at each step one of the executions under way finishes, whichever it
is, and its outcome is arbitrary. So nothing is assumed of nodes. They may share state, fail, or emit
as much as they like, and what holds of all these runs holds of every schedule.

## Accounts

Much of what runs keep is a sum over everything in them: each envelope that is under way or queued
contributes according to the stage that it has to pass, and the result contributes too. An `Account`
is such a sum. Starting executions never changes it, and the end of an execution replaces what its
input contributed by what its outcome does; so an account is settled once and for all here, and the
other files only choose one.

## Main definitions

* `Outcome`, `Outcome.emitted`, `RunResult.ofOutcome`: what becomes of an execution.
* `RunState.filled`, `RunState.Next`: a run that waits, and the end of an execution that it waits
  for.
* `RunState.Reaches`: the states of a run, with the executions that have finished.
* `Account`: sums over a run.

## Main results

* `RunState.settle_eq`, `RunState.fill_eq`: what the operations do.
* `RunState.wellFounded_next`: a run cannot go on for ever.
* `RunState.reaches_runReady`: a run whose executions finish at once is one of these.
* `Account.total_filled`, `Account.total_next`, `Account.total_reaches`: how accounts change.
-/

namespace FlowEngine

/-- What comes of an execution. -/
abbrev Outcome := Except NodeFailure NodeOutput

/-- The envelopes that go on. -/
def Outcome.emitted : Outcome → List (Envelope Value)
  | .ok (.single e) => [e]
  | .ok (.many es) => es
  | .ok .pending => []
  | .error _ => []

namespace RunResult

/-- What has come of one part of a run, and then of another. -/
instance : Append RunResult where
  append a b :=
    ⟨a.outputs ++ b.outputs, a.failures ++ b.failures, a.pending + b.pending,
      a.executions + b.executions⟩

/-- What one execution adds, apart from what it emits. -/
def ofOutcome : Outcome → RunResult
  | .ok (.single _) | .ok (.many _) => { executions := 1 }
  | .ok .pending => { pending := 1, executions := 1 }
  | .error failure => { failures := [failure], executions := 1 }

/-- What envelopes past the last stage add. -/
def ofOutputs (outputs : List (Envelope Value)) : RunResult := { outputs }

variable (a b c : RunResult)

@[simp] theorem outputs_append : (a ++ b).outputs = a.outputs ++ b.outputs := rfl

@[simp] theorem failures_append : (a ++ b).failures = a.failures ++ b.failures := rfl

@[simp] theorem pending_append : (a ++ b).pending = a.pending + b.pending := rfl

@[simp] theorem executions_append : (a ++ b).executions = a.executions + b.executions := rfl

theorem ext_fields {a b : RunResult} (outputs : a.outputs = b.outputs)
    (failures : a.failures = b.failures) (pending : a.pending = b.pending)
    (executions : a.executions = b.executions) : a = b := by
  cases a
  cases b
  simp_all

theorem append_assoc : a ++ b ++ c = a ++ (b ++ c) :=
  ext_fields (List.append_assoc ..) (List.append_assoc ..) (Nat.add_assoc ..) (Nat.add_assoc ..)

@[simp] theorem nil_append : ({} : RunResult) ++ a = a :=
  ext_fields rfl rfl (Nat.zero_add _) (Nat.zero_add _)

@[simp] theorem append_nil : a ++ ({} : RunResult) = a :=
  ext_fields (List.append_nil _) (List.append_nil _) rfl rfl

@[simp] theorem outputs_ofOutcome (o : Outcome) : (ofOutcome o).outputs = [] := by
  rcases o with _ | (_ | _ | _) <;> rfl

@[simp] theorem executions_ofOutcome (o : Outcome) : (ofOutcome o).executions = 1 := by
  rcases o with _ | (_ | _ | _) <;> rfl

theorem ofOutputs_cons (e : Envelope Value) (es : List (Envelope Value)) :
    ofOutputs (e :: es) = ofOutputs [e] ++ ofOutputs es := rfl

end RunResult

namespace RunState

variable {stages : Nat} {φ σ : Type}

/-! ## Taking in an outcome -/

/-- What an execution emits joins the back of the queue, and nothing else happens to the run. -/
theorem settle_eq (r : RunState stages φ) (stage : Nat) (o : Outcome) :
    r.settle stage o =
      ⟨r.queue ++ o.emitted.map fun e => (stage + 1, e), r.running, r.result ++ .ofOutcome o⟩ := by
  have keep (b : RunResult) (h : b.outputs = []) :
      r.result ++ b = ⟨r.result.outputs, r.result.failures ++ b.failures,
        r.result.pending + b.pending, r.result.executions + b.executions⟩ :=
    RunResult.ext_fields (by simp [h]) rfl rfl rfl
  rw [keep _ (RunResult.outputs_ofOutcome o)]
  rcases o with failure | (e | es | _) <;>
    simp [settle, Outcome.emitted, RunResult.ofOutcome]

/-! ## Starting executions -/

/-- Executions of the envelopes that have not passed the last stage. -/
def started (begin : Fin stages → Envelope Value → φ) (queue : List (Nat × Envelope Value)) :
    List (Fin stages × φ) :=
  queue.filterMap fun x =>
    if h : x.1 < stages then some (⟨x.1, h⟩, begin ⟨x.1, h⟩ x.2) else none

/-- The envelopes that have passed the last stage. -/
def passed (stages : Nat) (queue : List (Nat × Envelope Value)) : List (Envelope Value) :=
  (queue.filter fun x => stages ≤ x.1).map Prod.snd

section Fill

variable {begin : Fin stages → Envelope Value → φ} {limit stage : Nat} {e : Envelope Value}
  {queue : List (Nat × Envelope Value)}

theorem started_cons_of_lt (h : stage < stages) :
    started begin ((stage, e) :: queue) =
      (⟨stage, h⟩, begin ⟨stage, h⟩ e) :: started begin queue := by
  simp [started, h]

theorem started_cons_of_le (h : stages ≤ stage) :
    started begin ((stage, e) :: queue) = started begin queue := by
  simp [started, Nat.not_lt.mpr h]

theorem passed_cons_of_lt (h : stage < stages) :
    passed stages ((stage, e) :: queue) = passed stages queue := by
  simp [passed, h]

theorem passed_cons_of_le (h : stages ≤ stage) :
    passed stages ((stage, e) :: queue) = e :: passed stages queue := by
  simp [passed, h]

theorem fillFrom_eq (queue : List (Nat × Envelope Value)) (running : List (Fin stages × φ))
    (result : RunResult) :
    ∃ taken rest, queue = taken ++ rest ∧ fillFrom limit begin queue running result =
      ⟨rest, running ++ started begin taken, result ++ .ofOutputs (passed stages taken)⟩ := by
  induction queue generalizing running result with
  | nil => exact ⟨[], [], rfl, by simp [fillFrom, started, passed, RunResult.ofOutputs]⟩
  | cons x queue ih =>
    obtain ⟨stage, e⟩ := x
    unfold fillFrom
    split
    · split
      · rename_i hs
        obtain ⟨taken, rest, rfl, h⟩ := ih (running ++ [(⟨stage, hs⟩, begin ⟨stage, hs⟩ e)]) result
        refine ⟨(stage, e) :: taken, rest, rfl, ?_⟩
        rw [h, started_cons_of_lt hs, passed_cons_of_lt hs, List.append_assoc, List.singleton_append]
      · rename_i hs
        have hs := Nat.not_lt.mp hs
        obtain ⟨taken, rest, rfl, h⟩ := ih running { result with outputs := result.outputs ++ [e] }
        refine ⟨(stage, e) :: taken, rest, rfl, ?_⟩
        rw [h, started_cons_of_le hs, passed_cons_of_le hs, RunResult.ofOutputs_cons,
          ← RunResult.append_assoc]
        congr 2
        exact RunResult.ext_fields rfl (List.append_nil _).symm rfl rfl
    · exact ⟨[], (stage, e) :: queue, rfl, by simp [started, passed, RunResult.ofOutputs]⟩

/-- **Starting executions moves the front of the queue.** What has not passed the last stage goes to
the end of what is under way, and what has is an output. Nothing overtakes anything. -/
theorem fill_eq (r : RunState stages φ) :
    ∃ taken rest, r.queue = taken ++ rest ∧ r.fill limit begin =
      ⟨rest, r.running ++ started begin taken, r.result ++ .ofOutputs (passed stages taken)⟩ :=
  fillFrom_eq r.queue r.running r.result

theorem fillFrom_exhausts (queue : List (Nat × Envelope Value)) (running : List (Fin stages × φ))
    (result : RunResult) :
    (fillFrom limit begin queue running result).queue = [] ∨
      limit ≤ (fillFrom limit begin queue running result).running.length := by
  induction queue generalizing running result with
  | nil => exact .inl rfl
  | cons x queue ih =>
    unfold fillFrom
    split
    · split
      · exact ih _ _
      · exact ih _ _
    · rename_i h
      exact .inr (Nat.not_lt.mp h)

theorem length_running_fillFrom_le (queue : List (Nat × Envelope Value))
    (running : List (Fin stages × φ)) (result : RunResult) (h : running.length ≤ limit) :
    (fillFrom limit begin queue running result).running.length ≤ limit := by
  induction queue generalizing running result with
  | nil => exact h
  | cons x queue ih =>
    unfold fillFrom
    split
    · rename_i hlt
      split
      · exact ih _ _ (by simpa using Nat.succ_le_of_lt hlt)
      · exact ih _ _ h
    · exact h

/-- As many executions as the limit allows are under way, or nothing is left to start. -/
theorem fill_exhausts (r : RunState stages φ) :
    (r.fill limit begin).queue = [] ∨ max 1 limit ≤ (r.fill limit begin).running.length :=
  fillFrom_exhausts r.queue r.running r.result

theorem length_running_fill_le (r : RunState stages φ) (h : r.running.length ≤ max 1 limit) :
    (r.fill limit begin).running.length ≤ max 1 limit :=
  length_running_fillFrom_le r.queue r.running r.result h

/-- Nothing under way means that nothing waits either. -/
theorem queue_fill_eq_nil (r : RunState stages φ) (h : (r.fill limit begin).running = []) :
    (r.fill limit begin).queue = [] := by
  rcases @fill_exhausts stages φ begin limit r with hq | hlen
  · exact hq
  · rw [h, List.length_nil] at hlen
    omega

end Fill

/-! ## One execution after the other -/

/-- The run that has started all executions it can, and waits for one of them. -/
abbrev filled (limit : Nat) (r : RunState stages (Envelope Value)) :
    RunState stages (Envelope Value) := r.fill limit fun _ e => e

theorem filled_eq (limit : Nat) (r : RunState stages (Envelope Value)) :
    ∃ taken rest, r.queue = taken ++ rest ∧ r.filled limit =
      ⟨rest, r.running ++ started (fun _ e => e) taken,
        r.result ++ .ofOutputs (passed stages taken)⟩ := r.fill_eq

/-- An execution that has finished. -/
structure Finished (stages : Nat) where
  stage : Fin stages
  input : Envelope Value
  outcome : Outcome

/-- One of the executions under way finishes. -/
def Next (limit : Nat) (r : RunState stages (Envelope Value)) (c : Finished stages)
    (r' : RunState stages (Envelope Value)) : Prop :=
  ∃ before after, (r.filled limit).running = before ++ (c.stage, c.input) :: after ∧
    r' = { r.filled limit with running := before ++ after }.settle c.stage c.outcome

/-- The run on an input has come to a state, after executions have finished in this order. -/
inductive Reaches (limit : Nat) (input : Envelope Value) :
    List (Finished stages) → RunState stages (Envelope Value) → Prop
  | start : Reaches limit input [] (start input)
  | next {log : List (Finished stages)} {c : Finished stages}
    {r r' : RunState stages (Envelope Value)} (h : Reaches limit input log r)
    (hc : Next limit r c r') : Reaches limit input (log ++ [c]) r'

variable {limit : Nat} {input : Envelope Value} {log : List (Finished stages)}
  {r r' : RunState stages (Envelope Value)} {c : Finished stages}

/-- Whatever is under way may be the next to finish, with any outcome. -/
theorem exists_next {x : Fin stages × Envelope Value} (hx : x ∈ (r.filled limit).running)
    (o : Outcome) : ∃ r', Next limit r ⟨x.1, x.2, o⟩ r' := by
  obtain ⟨before, after, h⟩ := List.append_of_mem hx
  exact ⟨_, before, after, h, rfl⟩

/-- **A run cannot go on for ever**, however much its executions emit. -/
theorem wellFounded_next (limit : Nat) :
    WellFounded fun r' r : RunState stages (Envelope Value) => ∃ c, Next limit r c r' := by
  refine Subrelation.wf ?_ (InvImage.wf tally (Tally.lt_wf stages))
  rintro r' r ⟨c, before, after, h, rfl⟩
  exact tally_settle_lt limit (fun _ e => e) r h c.outcome

/-- At no time are more executions under way than allowed. -/
theorem Reaches.length_running_le (h : Reaches limit input log r) :
    (r.filled limit).running.length ≤ max 1 limit := by
  refine length_running_fill_le r ?_
  induction h with
  | start => simp [RunState.start]
  | @next log c r r' h hc ih =>
    obtain ⟨before, after, hr, rfl⟩ := hc
    have hle : (r.filled limit).running.length ≤ max 1 limit := length_running_fill_le r ih
    rw [hr] at hle
    simp only [settle_eq, List.length_append, List.length_cons] at hle ⊢
    omega

/-! ## Executions that finish at once -/

/-- The executions finish one after the other, and each finds the state that the one before has
left. -/
inductive Threaded (execute : Fin stages → Envelope Value → σ → Outcome × σ) :
    σ → List (Finished stages) → σ → Prop
  | nil (s : σ) : Threaded execute s [] s
  | cons {s s' : σ} {c : Finished stages} {log : List (Finished stages)}
    (hc : (execute c.stage c.input s).1 = c.outcome)
    (h : Threaded execute (execute c.stage c.input s).2 log s') : Threaded execute s (c :: log) s'

theorem Threaded.exists_state {execute : Fin stages → Envelope Value → σ → Outcome × σ} {s s' : σ}
    {log : List (Finished stages)} (h : Threaded execute s log s') {c : Finished stages}
    (hc : c ∈ log) : ∃ s, (execute c.stage c.input s).1 = c.outcome := by
  induction h with
  | nil s => cases hc
  | @cons s s' c' log hc' h ih =>
    rcases List.mem_cons.mp hc with rfl | hc
    · exact ⟨s, hc'⟩
    · exact ih hc

section RunReady

variable {execute : Fin stages → Envelope Value → σ → Outcome × σ} {s : σ}

theorem runReady_of_nil (h : (r.filled limit).running = []) :
    r.runReady limit execute s = ((r.filled limit).result, s) := by
  rw [runReady]
  split
  · rfl
  · rename_i hr
    simp [filled, hr] at h

theorem runReady_of_cons {stage : Fin stages} {e : Envelope Value}
    {rest : List (Fin stages × Envelope Value)} (h : (r.filled limit).running = (stage, e) :: rest) :
    r.runReady limit execute s =
      ({ r.filled limit with running := rest }.settle stage (execute stage e s).1).runReady limit
        execute (execute stage e s).2 := by
  rw [runReady]
  split
  · rename_i hr
    simp [filled, hr] at h
  · rename_i hr
    obtain ⟨⟨rfl, rfl⟩, rfl⟩ := by simpa [filled, hr] using h
    rfl

/-- **A run whose executions finish at once is a run**: its executions finish in some order, and each
finds the state that the one before has left. -/
theorem reaches_runReady (h : Reaches limit input log r) (s : σ) :
    ∃ more last, Reaches limit input (log ++ more) last ∧ (last.filled limit).running = [] ∧
      Threaded execute s more (r.runReady limit execute s).2 ∧
      (r.runReady limit execute s).1 = (last.filled limit).result := by
  induction r using (wellFounded_next limit).induction generalizing log s with
  | _ r ih =>
    cases hr : (r.filled limit).running with
    | nil =>
      rw [runReady_of_nil hr]
      exact ⟨[], r, by simpa using h, hr, .nil s, rfl⟩
    | cons x rest =>
      obtain ⟨stage, e⟩ := x
      let c : Finished stages := ⟨stage, e, (execute stage e s).1⟩
      have hc : Next limit r c ({ r.filled limit with running := rest }.settle stage c.outcome) :=
        ⟨[], rest, hr, rfl⟩
      obtain ⟨more, last, hreach, hend, hthread, hresult⟩ :=
        ih _ ⟨c, hc⟩ (h.next hc) (execute stage e s).2
      rw [runReady_of_cons hr]
      exact ⟨c :: more, last, by simpa using hreach, hend, .cons rfl hthread, hresult⟩

end RunReady

end RunState

/-- An envelope to try things on. -/
def sampleEnvelope (number : Nat) (data : Value := .null) : Envelope Value :=
  { Message.new data (.start "orders" "run-1" "input") with
    id := .ofNat number
    issuedAt := default }

/-! ## Accounts -/

/-- A sum over a run: what an envelope contributes that has to pass a stage, and what the result
contributes. An envelope that has passed the last stage contributes the same as an output. -/
structure Account (stages : Nat) (α : Type) [AddCommMonoid α] where
  waiting : Nat → Envelope Value → α
  result : RunResult → α
  result_nil : result {} = 0
  result_append : ∀ a b, result (a ++ b) = result a + result b
  result_output : ∀ stage e, stages ≤ stage → result (.ofOutputs [e]) = waiting stage e

namespace Account

open RunState

variable {stages : Nat} {α : Type} [AddCommMonoid α] (a : Account stages α)

/-- What a list of envelopes contributes. -/
def sum (queue : List (Nat × Envelope Value)) : α := (queue.map fun x => a.waiting x.1 x.2).sum

/-- What everything in a run contributes. -/
def total (r : RunState stages (Envelope Value)) : α :=
  a.sum (r.running.map fun x => (x.1.val, x.2)) + a.sum r.queue + a.result r.result

/-- What an outcome of a stage contributes. -/
def gain (stage : Nat) (o : Outcome) : α :=
  a.sum (o.emitted.map fun e => (stage + 1, e)) + a.result (.ofOutcome o)

@[simp] theorem sum_nil : a.sum [] = 0 := rfl

@[simp] theorem sum_cons (x : Nat × Envelope Value) (queue : List (Nat × Envelope Value)) :
    a.sum (x :: queue) = a.waiting x.1 x.2 + a.sum queue := by
  simp [sum]

@[simp] theorem sum_append (xs ys : List (Nat × Envelope Value)) :
    a.sum (xs ++ ys) = a.sum xs + a.sum ys := by
  simp [sum]

/-- What is started and what has passed the last stage are everything. -/
theorem sum_started_add_result_passed (queue : List (Nat × Envelope Value)) :
    a.sum ((@started stages _ (fun _ e => e) queue).map fun x => (x.1.val, x.2)) +
      a.result (.ofOutputs (passed stages queue)) = a.sum queue := by
  induction queue with
  | nil => simpa [started, passed, RunResult.ofOutputs] using a.result_nil
  | cons x queue ih =>
    obtain ⟨stage, e⟩ := x
    by_cases hs : stage < stages
    · rw [started_cons_of_lt hs, passed_cons_of_lt hs, List.map_cons, sum_cons, sum_cons, ← ih,
        add_assoc]
    · have hs := Nat.not_lt.mp hs
      rw [started_cons_of_le hs, passed_cons_of_le hs, RunResult.ofOutputs_cons, a.result_append,
        a.result_output stage e hs, sum_cons, ← ih, add_left_comm]

variable {limit : Nat} {r r' : RunState stages (Envelope Value)} {c : Finished stages}

theorem total_start (input : Envelope Value) : a.total (start input) = a.waiting 0 input := by
  simp [start, total, a.result_nil]

/-- Starting executions changes no account. -/
theorem total_filled (limit : Nat) (r : RunState stages (Envelope Value)) :
    a.total (r.filled limit) = a.total r := by
  obtain ⟨taken, rest, hq, hf⟩ := r.filled_eq limit
  rw [hf, total, total, hq, List.map_append, sum_append, sum_append, a.result_append,
    ← a.sum_started_add_result_passed taken]
  abel

/-- **The end of an execution** takes out what its input has contributed, and puts in what its
outcome does. -/
theorem total_next (h : Next limit r c r') :
    ∃ rest, a.total r = a.waiting c.stage c.input + rest ∧
      a.total r' = rest + a.gain c.stage c.outcome := by
  obtain ⟨before, after, hr, rfl⟩ := h
  refine ⟨a.total { r.filled limit with running := before ++ after }, ?_, ?_⟩
  · rw [← a.total_filled limit r, total, total, hr]
    simp only [List.map_append, List.map_cons, sum_append, sum_cons]
    abel
  · rw [settle_eq, total, total, gain]
    simp only [sum_append, a.result_append]
    abel

/-- What has been put in over a run, and what has been taken out. -/
theorem total_reaches {input : Envelope Value} {log : List (Finished stages)}
    (h : Reaches limit input log r) :
    a.total r + (log.map fun c => a.waiting c.stage c.input).sum =
      a.waiting 0 input + (log.map fun c => a.gain c.stage c.outcome).sum := by
  induction h with
  | start => simp [a.total_start]
  | @next log c r r' h hc ih =>
    obtain ⟨rest, hr, hr'⟩ := a.total_next hc
    rw [hr] at ih
    simp only [hr', List.map_append, List.map_cons, List.map_nil, List.sum_append, List.sum_cons,
      List.sum_nil, add_zero]
    calc rest + a.gain c.stage c.outcome +
          ((log.map fun c => a.waiting c.stage c.input).sum + a.waiting c.stage c.input)
        = a.waiting c.stage c.input + rest + (log.map fun c => a.waiting c.stage c.input).sum +
          a.gain c.stage c.outcome := by abel
      _ = _ := by rw [ih, add_assoc]

end Account

end FlowEngine
