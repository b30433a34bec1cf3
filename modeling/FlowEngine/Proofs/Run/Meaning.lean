import FlowEngine.Proofs.Run.Conservation
import FlowEngine.Proofs.Run.Determined
import Mathlib.Algebra.BigOperators.Group.Multiset.Basic

/-!
# What a pipeline means

If the outcome of a node is a function of what it is given, a pipeline has a meaning that speaks of
no queue, no limit and no order: an envelope goes through the first node, and what comes out of it
goes through the rest, each envelope by itself. A run executes many nodes at once, as far as a limit
allows, and takes their outcomes in as they come. This file shows that it comes to the same.

The argument is an account: every envelope in line contributes the meaning of the stages that it still
has to pass, and the result contributes what it holds. The end of an execution replaces the meaning of
its input by the meaning of what it emits, which is the same by the definition of meaning. So the sum
is the meaning of the pipeline from the beginning to the end.

## Main definitions

* `Yield`: what comes of a run, regardless of order, identities and times.
* `meaning`: the yield of a pipeline, as a recursion over its nodes.
* `RunState.meaningAccount`: what is in line, counted by what it means.

## Main results

* `RunState.yield_eq_meaning`: every schedule yields the meaning.
* `Engine.yield_run`: so does a run whose requests are answered at once.
-/

namespace FlowEngine

/-! ## Yields -/

/-- What comes of a run, regardless of order, identities and times. -/
@[ext]
structure Yield where
  outputs : Multiset (Message Value) := 0
  failures : Multiset (NodeError × Message Value) := 0
  pending : Nat := 0
  executions : Nat := 0

namespace Yield

instance : Zero Yield := ⟨{}⟩

instance : Add Yield :=
  ⟨fun a b => ⟨a.outputs + b.outputs, a.failures + b.failures, a.pending + b.pending,
    a.executions + b.executions⟩⟩

@[simp] theorem outputs_add (a b : Yield) : (a + b).outputs = a.outputs + b.outputs := rfl

@[simp] theorem failures_add (a b : Yield) : (a + b).failures = a.failures + b.failures := rfl

@[simp] theorem pending_add (a b : Yield) : (a + b).pending = a.pending + b.pending := rfl

@[simp] theorem executions_add (a b : Yield) :
    (a + b).executions = a.executions + b.executions := rfl

instance : AddCommMonoid Yield where
  add_assoc a b c := Yield.ext (add_assoc ..) (add_assoc ..) (add_assoc ..) (add_assoc ..)
  zero_add a := Yield.ext (zero_add _) (zero_add _) (zero_add _) (zero_add _)
  add_zero a := Yield.ext (add_zero _) (add_zero _) (add_zero _) (add_zero _)
  add_comm a b := Yield.ext (add_comm ..) (add_comm ..) (add_comm ..) (add_comm ..)
  nsmul := nsmulRec

end Yield

/-- What a result yields. -/
def RunResult.yield (r : RunResult) : Yield where
  outputs := r.outputs.map Envelope.content
  failures := r.failures.map NodeFailure.content
  pending := r.pending
  executions := r.executions

theorem RunResult.yield_append (a b : RunResult) : (a ++ b).yield = a.yield + b.yield := by
  ext1 <;> simp [RunResult.yield]

/-! ## The meaning of a pipeline -/

/-- What the nodes of a pipeline make of an envelope that says `m`, if `outcome` says what each node
makes of it. -/
def meaning (outcome : NodeConfig → Message Value → Except NodeError Said) :
    List NodeConfig → Message Value → Yield
  | [], m => { outputs := {m} }
  | node :: rest, m =>
    { executions := 1 } +
      match outcome node m with
      | .ok (.single m) => meaning outcome rest m
      | .ok (.many ms) => (ms.map (meaning outcome rest)).sum
      | .ok .pending => { pending := 1 }
      | .error error => { failures := {(error, (failureMessage default node m error).undated)} }

namespace RunState

variable {registry : Registry} {context : NodeContext} {pipeline : List NodeConfig}
  {outcome : NodeConfig → Message Value → Except NodeError Said} {limit : Nat}
  {input : Envelope Value} {log : List (Finished pipeline.length)}
  {r : RunState pipeline.length (Envelope Value)}

/-- Every envelope in line contributes the meaning of the stages that it still has to pass. -/
def meaningAccount (outcome : NodeConfig → Message Value → Except NodeError Said)
    (pipeline : List NodeConfig) : Account pipeline.length Yield where
  waiting stage e := meaning outcome (pipeline.drop stage) e.content
  result := RunResult.yield
  result_nil := rfl
  result_append := RunResult.yield_append
  result_output stage e h := by
    rw [List.drop_eq_nil_of_le h]
    rfl

/-- **The end of an execution changes no meaning**: what it emits means what its input has meant. -/
theorem gain_meaningAccount (hm : Determined registry context pipeline outcome)
    {c : Finished pipeline.length} (hc : Possible registry context pipeline c) :
    (meaningAccount outcome pipeline).gain c.stage c.outcome =
      (meaningAccount outcome pipeline).waiting c.stage c.input := by
  obtain ⟨state, hc⟩ := hc
  have hmem : pipeline[c.stage] ∈ pipeline := List.getElem_mem _
  have hwaiting : (meaningAccount outcome pipeline).waiting c.stage c.input =
      meaning outcome (pipeline[c.stage] :: pipeline.drop (c.stage + 1)) c.input.content := by
    simp only [meaningAccount, Fin.getElem_fin]
    rw [List.drop_eq_getElem_cons c.stage.isLt]
  rw [hwaiting, meaning, Account.gain, add_comm]
  rcases Registry.execute_cases hc with ⟨output, ho, hout⟩ | ⟨error, failure, ho, hout, hcontent⟩
  · have hf : outcome pipeline[c.stage] c.input.content = .ok output.content :=
      (hm _ hmem _ _ _ ho).symm
    rw [hout, hf]
    cases output with
    | single e =>
      simp only [Outcome.emitted, List.map_cons, List.map_nil, Account.sum_cons, Account.sum_nil,
        add_zero]
      rfl
    | many es =>
      simp only [Outcome.emitted, Account.sum, List.map_map, NodeOutput.content]
      rfl
    | pending => exact add_zero _
  · have hf : outcome pipeline[c.stage] c.input.content = .error error := (hm _ hmem _ _ _ ho).symm
    rw [hout, hf]
    have hyield : (RunResult.ofOutcome (.error failure)).yield =
        { executions := 1 } + { failures := {failure.content} } := by
      ext1 <;> simp [RunResult.yield, RunResult.ofOutcome]
    simp only [Outcome.emitted, List.map_nil, Account.sum_nil, add_zero]
    rw [← hcontent]
    exact hyield

/-- What has come of a run, and what everything in line still means, is the meaning of the
pipeline. -/
theorem total_meaningAccount (hm : Determined registry context pipeline outcome)
    (h : Reaches limit input log r) (hlog : ∀ c ∈ log, Possible registry context pipeline c) :
    (meaningAccount outcome pipeline).total r = meaning outcome pipeline input.content := by
  induction h with
  | start => exact (meaningAccount outcome pipeline).total_start input
  | @next log c r r' h hc ih =>
    obtain ⟨rest, hr, hr'⟩ := (meaningAccount outcome pipeline).total_next hc
    rw [hr', gain_meaningAccount hm (hlog c (by simp)), add_comm, ← hr]
    exact ih fun c' hc' => hlog c' (by simp [hc'])

theorem executions_meaning_pos {node : NodeConfig} {rest : List NodeConfig} (m : Message Value) :
    0 < (meaning outcome (node :: rest) m).executions := by
  rw [meaning, Yield.executions_add]
  exact Nat.add_pos_left Nat.one_pos _

/-- As long as something is under way, more executions are meant than have finished. -/
theorem executions_lt_of_running (hm : Determined registry context pipeline outcome)
    (h : Reaches limit input log r) (hlog : ∀ c ∈ log, Possible registry context pipeline c)
    (hr : (r.filled limit).running ≠ []) :
    (r.filled limit).result.executions < (meaning outcome pipeline input.content).executions := by
  have htotal := total_meaningAccount hm h hlog
  rw [← (meaningAccount outcome pipeline).total_filled limit r] at htotal
  obtain ⟨x, rest, hx⟩ := List.exists_cons_of_ne_nil hr
  have hpos : 0 < ((meaningAccount outcome pipeline).waiting x.1 x.2).executions := by
    simp only [meaningAccount]
    rw [List.drop_eq_getElem_cons x.1.isLt]
    exact executions_meaning_pos _
  rw [← htotal, Account.total, hx, List.map_cons, Account.sum_cons]
  simp only [Yield.executions_add, meaningAccount, RunResult.yield] at hpos ⊢
  omega

/-- What has come of a run that has ended is the meaning of the pipeline. -/
theorem yield_of_ended (hm : Determined registry context pipeline outcome)
    (h : Reaches limit input log r) (hlog : ∀ c ∈ log, Possible registry context pipeline c)
    (hr : (r.filled limit).running = []) :
    (r.filled limit).result.yield = meaning outcome pipeline input.content := by
  rw [← total_meaningAccount hm h hlog, ← (meaningAccount outcome pipeline).total_filled limit r,
    Account.total, hr, queue_fill_eq_nil r hr, List.map_nil, Account.sum_nil, zero_add, zero_add]
  rfl

/-- **Every schedule yields the meaning of the pipeline.** If the outcome of every node is a function
of what it is given, then, whatever the limit is, in whatever order executions finish, and whatever
else happens meanwhile: a run has ended exactly when as many executions have finished as are meant,
and never goes on after that; and then its outputs, its failures and its numbers of absorbed envelopes
and of executions are those of the meaning. -/
theorem yield_eq_meaning (hm : Determined registry context pipeline outcome)
    (h : Reaches limit input log r) (hlog : ∀ c ∈ log, Possible registry context pipeline c) :
    log.length ≤ (meaning outcome pipeline input.content).executions ∧
      ((r.filled limit).running = [] ↔
        log.length = (meaning outcome pipeline input.content).executions) ∧
      ((r.filled limit).running = [] →
        (r.filled limit).result.yield = meaning outcome pipeline input.content) := by
  obtain ⟨-, -, hcount⟩ := result_eq h
  have hend := yield_of_ended hm h hlog
  have hlt := executions_lt_of_running hm h hlog
  have heq : (r.filled limit).running = [] →
      log.length = (meaning outcome pipeline input.content).executions := by
    intro hr
    rw [← hend hr, ← hcount]
    rfl
  by_cases hr : (r.filled limit).running = []
  · exact ⟨(heq hr).le, iff_of_true hr (heq hr), hend⟩
  · have := hlt hr
    rw [hcount] at this
    exact ⟨this.le, iff_of_false hr this.ne, hend⟩

/-! ### A run to try things on -/

/-- Splits a sequence, and what it has held once more. -/
def splitTwice : List NodeConfig :=
  [{ id := "outer", nodeType := "flow.split" }, { id := "inner", nodeType := "flow.split" }]

/-- Two sequences, with something between them that is not one. -/
def nested : Envelope Value :=
  sampleEnvelope 0 (.array [.array [.string "a", .string "b"], .string "x", .array [.string "c"]])

/-- What splitting leads to, with the identities from `next` on. -/
def splitOutcome (node : NodeConfig) (input : Envelope Value) (next : Nat) : Outcome :=
  match Split.run node input with
  | .ok work => .ok (work ⟨next, default⟩).1
  | .error error => .error (NodeFailure.of node input error ⟨next, default⟩).1

/-- An item of the outer sequence. -/
def branch (i : Nat) : Envelope Value :=
  (splitOutcome splitTwice[0] nested 1).emitted.getD i nested

/-- The second item fails before the others are done, and the third one overtakes the first. -/
def splitLog : List (Finished splitTwice.length) :=
  let outer : Fin splitTwice.length := ⟨0, by decide⟩
  let inner : Fin splitTwice.length := ⟨1, by decide⟩
  [⟨outer, nested, splitOutcome splitTwice[0] nested 1⟩,
    ⟨inner, branch 1, splitOutcome splitTwice[1] (branch 1) 4⟩,
    ⟨inner, branch 2, splitOutcome splitTwice[1] (branch 2) 5⟩,
    ⟨inner, branch 0, splitOutcome splitTwice[1] (branch 0) 6⟩]

theorem yield_eq_meaning_splitLog :
    Determined .standard ⟨"orders", "run-1", false⟩ splitTwice
        (statelessOutcome .standard ⟨"orders", "run-1", false⟩) ∧
      (∀ c ∈ splitLog, Possible .standard ⟨"orders", "run-1", false⟩ splitTwice c) ∧
      ∃ r, Reaches 2 nested splitLog r ∧ (r.filled 2).running = [] ∧
        (r.filled 2).result.failures.length = 1 ∧
        (r.filled 2).result.yield = meaning (statelessOutcome .standard ⟨"orders", "run-1", false⟩)
          splitTwice nested.content := by
  have hdetermined : Determined .standard ⟨"orders", "run-1", false⟩ splitTwice
      (statelessOutcome .standard ⟨"orders", "run-1", false⟩) := by
    refine determined_standard fun node hnode => ?_
    simp only [splitTwice, List.mem_cons, List.not_mem_nil, or_false] at hnode
    rcases hnode with rfl | rfl <;> simp [statelessTypes]
  have hpossible : ∀ c ∈ splitLog, Possible .standard ⟨"orders", "run-1", false⟩ splitTwice c := by
    intro c hc
    simp only [splitLog, List.mem_cons, List.not_mem_nil, or_false] at hc
    rcases hc with rfl | rfl | rfl | rfl
    · exact ⟨{ supply := ⟨1, default⟩ }, .finished _ _⟩
    · exact ⟨{ supply := ⟨4, default⟩ }, .finished _ _⟩
    · exact ⟨{ supply := ⟨5, default⟩ }, .finished _ _⟩
    · exact ⟨{ supply := ⟨6, default⟩ }, .finished _ _⟩
  have hreach : ∃ r, Reaches 2 nested splitLog r ∧ (r.filled 2).running = [] ∧
      (r.filled 2).result.failures.length = 1 :=
    ⟨_, .next (.next (.next (.next .start ⟨[], [], rfl, rfl⟩) ⟨[_], [], rfl, rfl⟩)
      ⟨[_], [], rfl, rfl⟩) ⟨[], [], rfl, rfl⟩, rfl, rfl⟩
  obtain ⟨r, hr, hend, hfailures⟩ := hreach
  obtain ⟨-, -, hyield⟩ := yield_eq_meaning hdetermined hr hpossible
  exact ⟨hdetermined, hpossible, r, hr, hend, hfailures, hyield hend⟩

end RunState

/-- So does a run of an engine whose requests are answered at once, whatever the answers are. -/
theorem Engine.yield_run {σ : Type} (engine : Engine) (context : NodeContext)
    (reply : (request : Request) → σ → request.Reply × σ) {pipeline : List NodeConfig}
    {outcome : NodeConfig → Message Value → Except NodeError Said}
    (hm : Determined engine.registry context pipeline outcome) (input : Envelope Value) (s : σ) :
    (engine.run context reply pipeline input s).1.yield = meaning outcome pipeline input.content := by
  obtain ⟨log, last, hreach, hend, hthread, hresult⟩ :=
    @RunState.reaches_runReady pipeline.length _ engine.settings.maxParallel input [] (.start input)
      (fun stage => engine.execute context reply pipeline[stage]) .start (engine.workspace, s)
  rw [Engine.run]
  simp only
  rw [hresult]
  refine RunState.yield_of_ended hm hreach (fun c hc => ?_) hend
  obtain ⟨state, hc⟩ := hthread.exists_state hc
  refine ⟨state.1, ?_⟩
  rw [← hc]
  exact Turn.mayFinish_settle reply state.2 _

end FlowEngine
