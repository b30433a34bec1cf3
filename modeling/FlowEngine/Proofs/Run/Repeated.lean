import FlowEngine.Proofs.Run.Alike
import FlowEngine.Proofs.Run.Levels

/-!
# Runs under an identity that was used before

An engine is told when a run is over, and then forgets the variables of the run. If another run
comes under the same identity, what is it that can tell that there was one before?

The groups. Forgetting a run does not close them, and a group that was left incomplete is still
there when the next run comes to a node of the same name. And only the groups: with those of its
own nodes empty, a run does what it does in an engine that nothing has used, whatever else there is
in the workspace. So the law that a run leaves nothing behind holds of exactly those runs that have
left no group open.

## How runs are compared

Both engines have to be watched under the same circumstances. The requests of nodes are answered
by a function of the request, and a schedule says which execution goes on next; `SharedRun.play` is
the run that comes of it. Two such runs are the same if nobody can tell them apart at any point of
any schedule, by what they have asked for, by what has come of them, or by whether they have ended.

## Main definitions

* `SharedRun.play`, `Engine.play`: a run under a schedule.
* `RunResult.content`: what has come of a run, apart from identities and times.
* `SharedRun.Alike`: two runs that are about to do the same.
* `Engine.Same`: two engines in which a run is the same.

## Main results

* `SharedRun.reaches_play`, `Engine.exists_play_run`: these are runs, and the runs whose requests are
  answered at once are among them.
* `SharedRun.Alike.wake`, `SharedRun.Alike.play`: one step, and all of a schedule.
* `Engine.same_of_alike`: engines that differ only in what the run does not look at.
* `Engine.content_run_iff_idle`: runs under an identity that was used before.
-/

namespace FlowEngine

/-! ## Schedules -/

/-- An execution goes on: one that has not been looked at begins, and one that waits is replied. -/
def Execution.goOn (begin : Envelope Value → Activity Outcome)
    (reply : (request : Request) → request.Reply) (workspace : Workspace) :
    Execution → Turn Outcome
  | .fresh input => begin input workspace
  | .waiting _ request resume => resume (reply request) workspace

/-- Requests are answered by a function of the request, at once. -/
def answering (reply : (request : Request) → request.Reply) (request : Request) (a : Unit) :
    request.Reply × Unit := (reply request, a)

namespace SharedRun

section Play

variable {stages : Nat} (limit : Nat)
  (begin : Fin stages → Bool → Envelope Value → Activity Outcome) (cancelled : Bool)
  (reply : (request : Request) → request.Reply)

/-- One of the executions goes on, if there are so many. -/
def wake (s : SharedRun stages) (i : Nat) : SharedRun stages :=
  match s.run.running[i]? with
  | none => s
  | some (stage, x) =>
    s.advance limit (s.run.running.take i) (s.run.running.drop (i + 1)) stage x.input
      (x.goOn (begin stage cancelled) reply s.workspace)

/-- Executions go on one after the other as a schedule says. -/
def play (s : SharedRun stages) (schedule : List Nat) : SharedRun stages :=
  schedule.foldl (wake limit begin cancelled reply) s

variable {limit begin cancelled reply} {s : SharedRun stages}

theorem play_append (xs ys : List Nat) :
    s.play limit begin cancelled reply (xs ++ ys) =
      (s.play limit begin cancelled reply xs).play limit begin cancelled reply ys :=
  List.foldl_append

theorem reaches_wake (later : Workspace → Workspace → Prop) (s : SharedRun stages) (i : Nat) :
    Reaches begin limit later s (s.wake limit begin cancelled reply i) := by
  unfold wake
  split
  · exact .refl
  · rename_i stage x hx
    have hi := (List.getElem?_eq_some_iff.mp hx).1
    have hsplit : s.run.running =
        s.run.running.take i ++ (stage, x) :: s.run.running.drop (i + 1) := by
      rw [← (List.getElem?_eq_some_iff.mp hx).2, List.cons_getElem_drop_succ, List.take_append_drop]
    refine .single (.goesOn hsplit ?_)
    cases x with
    | fresh input => exact .begun input cancelled s.workspace
    | waiting input request resume =>
      exact .replied input request resume (reply request) s.workspace

/-- A schedule leads to a state that the run may come to. -/
theorem reaches_play (later : Workspace → Workspace → Prop) (s : SharedRun stages)
    (schedule : List Nat) :
    Reaches begin limit later s (s.play limit begin cancelled reply schedule) := by
  induction schedule generalizing s with
  | nil => exact .refl
  | cons i schedule ih => exact (reaches_wake later s i).trans (ih _)

/-! ### Replies that come at once -/

/-- A run that has ended does not go on. -/
theorem play_of_ended (h : s.run.running = []) (schedule : List Nat) :
    s.play limit begin cancelled reply schedule = s := by
  induction schedule with
  | nil => rfl
  | cons i schedule ih =>
    have hwake : s.wake limit begin cancelled reply i = s := by
      rw [wake, h, List.getElem?_nil]
    rw [play, List.foldl_cons, hwake]
    exact ih

variable (limit begin cancelled reply) in
/-- The execution that was started first is looked at until it has finished. -/
theorem exists_play_settle {stage : Fin stages} {x : Execution}
    {after : List (Fin stages × Execution)} (hx : s.run.running = (stage, x) :: after)
    {t : Turn Outcome} (ht : x.goOn (begin stage cancelled) reply s.workspace = t) :
    ∃ n asked, s.play limit begin cancelled reply (List.replicate n 0) =
      { s with asked }.advance limit [] after stage x.input
        (.finished (t.settle (answering reply) ()).2.1 (t.settle (answering reply) ()).1) := by
  have hwake : s.wake limit begin cancelled reply 0 = s.advance limit [] after stage x.input t := by
    rw [wake, hx, ← ht]
    rfl
  induction t generalizing s x with
  | finished state outcome => exact ⟨1, s.asked, hwake⟩
  | waiting state request resume ih =>
    obtain ⟨n, asked, hplay⟩ := ih (reply request) state
      (s := s.advance limit [] after stage x.input (.waiting state request resume))
      (x := .waiting x.input request resume) rfl rfl rfl
    refine ⟨n + 1, asked, ?_⟩
    rw [List.replicate_succ, play, List.foldl_cons, hwake]
    exact hplay

/-- A run whose requests are answered at once comes of looking at the first execution again and
again. -/
theorem exists_play_runReady {r : RunState stages (Envelope Value)}
    (hs : s.run = ofFresh (r.filled limit)) :
    ∃ n, ∀ m, n ≤ m →
      (s.play limit begin cancelled reply (List.replicate m 0)).run.running = [] ∧
        (s.play limit begin cancelled reply (List.replicate m 0)).run.result =
          (r.runReady limit (fun stage e state =>
            (begin stage cancelled e state.1).settle (answering reply) state.2)
            (s.workspace, ())).1 := by
  induction r using (RunState.wellFounded_next limit).induction generalizing s with
  | _ r ih =>
    cases hr : (r.filled limit).running with
    | nil =>
      have hended : s.run.running = [] := by
        rw [hs, ofFresh, hr, List.map_nil]
      refine ⟨0, fun m _ => ?_⟩
      rw [play_of_ended hended, RunState.runReady_of_nil hr, hended, hs]
      exact ⟨rfl, rfl⟩
    | cons x rest =>
      obtain ⟨stage, e⟩ := x
      have hrunning : s.run.running = (stage, .fresh e) :: rest.map asFresh := by
        rw [hs, ofFresh, hr]
        rfl
      obtain ⟨n, asked, hplay⟩ := exists_play_settle limit begin cancelled reply hrunning rfl
      let settled := (begin stage cancelled e s.workspace).settle (answering reply) ()
      have hnext : RunState.Next limit r ⟨stage, e, settled.1⟩
          ({ r.filled limit with running := rest }.settle stage settled.1) := ⟨[], rest, hr, rfl⟩
      have hrun : filled limit ({ s.run with running := rest.map asFresh }.settle stage settled.1) =
          ofFresh (({ r.filled limit with running := rest }.settle stage settled.1).filled
            limit) := by
        rw [hs]
        exact filled_settle_ofFresh limit (r.filled limit) rest stage settled.1
      obtain ⟨n', h⟩ := ih _ ⟨_, hnext⟩ (s := { s with asked }.advance limit [] (rest.map asFresh)
        stage e (.finished settled.2.1 settled.1)) hrun
      refine ⟨n + n', fun m hm => ?_⟩
      rw [← Nat.add_sub_cancel' (Nat.le_of_add_right_le hm), List.replicate_add, play_append, hplay,
        RunState.runReady_of_cons hr]
      exact h (m - n) (by omega)

end Play

end SharedRun

namespace Engine

/-- A run of a pipeline under a schedule. -/
def play (engine : Engine) (context : NodeContext) (reply : (request : Request) → request.Reply)
    (pipeline : List NodeConfig) (input : Envelope Value) (schedule : List Nat) :
    SharedRun pipeline.length :=
  (SharedRun.begin engine.settings.maxParallel engine.workspace input).play
    engine.settings.maxParallel (engine.registry.begin context pipeline) context.cancelled reply
    schedule

/-- Runs whose requests are answered at once are among these. -/
theorem exists_play_run (engine : Engine) (context : NodeContext)
    (reply : (request : Request) → request.Reply) (pipeline : List NodeConfig)
    (input : Envelope Value) :
    ∃ n, ∀ m, n ≤ m →
      (engine.play context reply pipeline input (List.replicate m 0)).run.running = [] ∧
        (engine.play context reply pipeline input (List.replicate m 0)).run.result =
          (engine.run context (answering reply) pipeline input ()).1 :=
  SharedRun.exists_play_runReady
    (SharedRun.filled_ofFresh engine.settings.maxParallel (.start input))

/-- Such a run is over as soon as nothing is under way. -/
theorem run_of_ended {engine : Engine} {context : NodeContext}
    {reply : (request : Request) → request.Reply} {pipeline : List NodeConfig}
    {input : Envelope Value} {k : Nat}
    (h : (engine.play context reply pipeline input (List.replicate k 0)).run.running = []) :
    (engine.run context (answering reply) pipeline input ()).1 =
      (engine.play context reply pipeline input (List.replicate k 0)).run.result := by
  obtain ⟨n, hrun⟩ := engine.exists_play_run context reply pipeline input
  have hmore : engine.play context reply pipeline input (List.replicate (k + n) 0) =
      engine.play context reply pipeline input (List.replicate k 0) := by
    rw [List.replicate_add, play, SharedRun.play_append]
    exact SharedRun.play_of_ended h _
  rw [← (hrun (k + n) (Nat.le_add_left n k)).2, hmore]

end Engine

/-! ## Runs that are about to do the same -/

/-- What has come of a run, apart from identities and times. -/
structure ResultContent where
  outputs : List (Message Value)
  failures : List (NodeError × Message Value)
  pending : Nat
  executions : Nat

/-- What has come of a run, apart from identities and times. -/
def RunResult.content (r : RunResult) : ResultContent where
  outputs := r.outputs.map Envelope.content
  failures := r.failures.map NodeFailure.content
  pending := r.pending
  executions := r.executions

theorem RunResult.content_append {a a' b b' : RunResult} (ha : a.content = a'.content)
    (hb : b.content = b'.content) : (a ++ b).content = (a' ++ b').content := by
  simp only [content, ResultContent.mk.injEq, outputs_append, failures_append, pending_append,
    executions_append, List.map_append] at ha hb ⊢
  obtain ⟨houtputs, hfailures, hpending, hexecutions⟩ := ha
  obtain ⟨houtputs', hfailures', hpending', hexecutions'⟩ := hb
  rw [houtputs, houtputs', hfailures, hfailures', hpending, hpending', hexecutions, hexecutions']
  exact ⟨rfl, rfl, rfl, rfl⟩

/-- Two executions that are about to do the same. -/
inductive Execution.Alike (agentId runId : String) (nodes : String → Prop) :
    Execution → Execution → Prop
  | fresh {e e' : Envelope Value} (h : Envelope.Alike agentId runId e e') :
    Alike agentId runId nodes (.fresh e) (.fresh e')
  | waiting {e e' : Envelope Value} {request : Request}
    {resume resume' : request.Reply → Workspace → Turn Outcome}
    (h : ∀ reply later later', Workspace.Alike agentId runId nodes later later' →
      Turn.Alike (Workspace.Alike agentId runId nodes) (Outcome.Alike agentId runId)
        (resume reply later) (resume' reply later')) :
    Alike agentId runId nodes (.waiting e request resume) (.waiting e' request resume')

section Runs

variable {stages limit : Nat} {agentId runId : String} {nodes : String → Prop}
  {reply : (request : Request) → request.Reply}

theorem Execution.Alike.goOn {x x' : Execution} (h : x.Alike agentId runId nodes x')
    {begin begin' : Envelope Value → Activity Outcome}
    (hbegin : ∀ e e', Envelope.Alike agentId runId e e' →
      (begin e).Alike (Workspace.Alike agentId runId nodes) (Outcome.Alike agentId runId) (begin' e'))
    {workspace workspace' : Workspace}
    (hworkspace : Workspace.Alike agentId runId nodes workspace workspace') :
    Turn.Alike (Workspace.Alike agentId runId nodes) (Outcome.Alike agentId runId)
      (x.goOn begin reply workspace) (x'.goOn begin' reply workspace') := by
  cases h with
  | fresh he => exact hbegin _ _ he _ _ hworkspace
  | waiting h => exact h _ _ _ hworkspace

theorem Outcome.Alike.emitted {o o' : Outcome} (h : o.Alike agentId runId o') :
    List.Forall₂ (Envelope.Alike agentId runId) o.emitted o'.emitted := by
  cases h with
  | single h => exact .cons h .nil
  | many h => exact h
  | pending | error => exact .nil

theorem Outcome.Alike.content_ofOutcome {o o' : Outcome} (h : o.Alike agentId runId o') :
    (RunResult.ofOutcome o).content = (RunResult.ofOutcome o').content := by
  cases h with
  | single | many | pending => rfl
  | error h => simp [RunResult.ofOutcome, RunResult.content, h]

/-- Envelopes that say the same wait for the same stages. -/
abbrev QueueAlike (agentId runId : String) :
    List (Nat × Envelope Value) → List (Nat × Envelope Value) → Prop :=
  List.Forall₂ fun x x' => x.1 = x'.1 ∧ Envelope.Alike agentId runId x.2 x'.2

/-- Executions of the same stages are about to do the same. -/
abbrev RunningAlike (agentId runId : String) (nodes : String → Prop) :
    List (Fin stages × Execution) → List (Fin stages × Execution) → Prop :=
  List.Forall₂ fun x x' => x.1 = x'.1 ∧ x.2.Alike agentId runId nodes x'.2

/-- Two states of a run that are about to do the same. -/
structure RunState.Alike (agentId runId : String) (nodes : String → Prop)
    (r r' : RunState stages Execution) : Prop where
  queue : QueueAlike agentId runId r.queue r'.queue
  running : RunningAlike agentId runId nodes r.running r'.running
  result : r.result.content = r'.result.content

variable {r r' : RunState stages Execution}

theorem RunState.Alike.fillFrom {queue queue' : List (Nat × Envelope Value)}
    {xs xs' : List (Fin stages × Execution)} {a a' : RunResult}
    (hqueue : QueueAlike agentId runId queue queue') (hxs : RunningAlike agentId runId nodes xs xs')
    (ha : a.content = a'.content) (limit : Nat) :
    RunState.Alike agentId runId nodes (RunState.fillFrom limit (fun _ e => .fresh e) queue xs a)
      (RunState.fillFrom limit (fun _ e => .fresh e) queue' xs' a') := by
  induction hqueue generalizing xs xs' a a' with
  | nil => exact ⟨.nil, hxs, ha⟩
  | @cons x x' queue queue' hx hqueue ih =>
    obtain ⟨stage, e⟩ := x
    obtain ⟨stage', e'⟩ := x'
    obtain ⟨rfl, he⟩ := hx
    unfold RunState.fillFrom
    rw [hxs.length_eq]
    split
    · split
      · exact ih (List.rel_append hxs (.cons ⟨rfl, .fresh he⟩ .nil)) ha
      · refine ih hxs ?_
        simp only [RunResult.content, ResultContent.mk.injEq, List.map_append] at ha ⊢
        exact ⟨congrArg₂ _ ha.1 (congrArg (fun m => [m]) he.undated), ha.2⟩
    · exact ⟨.cons ⟨rfl, he⟩ hqueue, hxs, ha⟩

/-- They start the same executions. -/
theorem RunState.Alike.filled (h : r.Alike agentId runId nodes r') (limit : Nat) :
    RunState.Alike agentId runId nodes (SharedRun.filled limit r) (SharedRun.filled limit r') :=
  .fillFrom h.queue h.running h.result _

theorem RunState.Alike.settle (h : r.Alike agentId runId nodes r') (stage : Nat) {o o' : Outcome}
    (ho : o.Alike agentId runId o') :
    RunState.Alike agentId runId nodes (r.settle stage o) (r'.settle stage o') := by
  rw [settle_eq, settle_eq]
  refine ⟨List.rel_append h.queue ?_, h.running,
    RunResult.content_append h.result ho.content_ofOutcome⟩
  rw [List.forall₂_map_left_iff, List.forall₂_map_right_iff]
  exact ho.emitted.imp fun _ _ he => ⟨rfl, he⟩

namespace SharedRun

/-- Two runs that are about to do the same, in workspaces that hold the same for them. -/
structure Alike (agentId runId : String) (nodes : String → Prop) (s s' : SharedRun stages) :
    Prop where
  run : s.run.Alike agentId runId nodes s'.run
  workspace : Workspace.Alike agentId runId nodes s.workspace s'.workspace
  asked : s.asked = s'.asked

variable {s s' : SharedRun stages} {cancelled : Bool}
  {begin begin' : Fin stages → Bool → Envelope Value → Activity Outcome}

theorem alike_begin (limit : Nat) {workspace workspace' : Workspace} {e e' : Envelope Value}
    (hworkspace : Workspace.Alike agentId runId nodes workspace workspace')
    (he : Envelope.Alike agentId runId e e') :
    Alike agentId runId nodes (SharedRun.begin limit workspace e : SharedRun stages)
      (.begin limit workspace' e') where
  run := by
    have hstart : RunState.Alike agentId runId nodes (.start e : RunState stages Execution)
        (.start e') := ⟨.cons ⟨rfl, he⟩ .nil, .nil, rfl⟩
    exact hstart.filled limit
  workspace := hworkspace
  asked := rfl

/-- An execution has gone on in both. -/
theorem Alike.advance (h : Alike agentId runId nodes s s')
    {before before' after after' : List (Fin stages × Execution)}
    (hbefore : RunningAlike agentId runId nodes before before')
    (hafter : RunningAlike agentId runId nodes after after')
    (stage : Fin stages) (e e' : Envelope Value) {t t' : Turn Outcome}
    (ht : t.Alike (Workspace.Alike agentId runId nodes) (Outcome.Alike agentId runId) t') :
    Alike agentId runId nodes (s.advance limit before after stage e t)
      (s'.advance limit before' after' stage e' t') := by
  cases ht with
  | finished hworkspace ho =>
    refine ⟨RunState.Alike.filled (RunState.Alike.settle ?_ stage ho) limit, hworkspace, h.asked⟩
    exact ⟨h.run.queue, List.rel_append hbefore hafter, h.run.result⟩
  | waiting hworkspace hresume =>
    refine ⟨⟨h.run.queue, ?_, h.run.result⟩, hworkspace, ?_⟩
    · exact List.rel_append hbefore (.cons ⟨rfl, .waiting hresume⟩ hafter)
    · simp only [SharedRun.advance, h.asked]

/-- **One step keeps two runs alike.** -/
theorem Alike.wake (h : Alike agentId runId nodes s s')
    (hbegin : ∀ stage e e', Envelope.Alike agentId runId e e' →
      (begin stage cancelled e).Alike (Workspace.Alike agentId runId nodes)
        (Outcome.Alike agentId runId) (begin' stage cancelled e')) (i : Nat) :
    Alike agentId runId nodes (s.wake limit begin cancelled reply i)
      (s'.wake limit begin' cancelled reply i) := by
  have hlength := h.run.running.length_eq
  by_cases hi : i < s.run.running.length
  · obtain ⟨hstage, hx⟩ := h.run.running.get hi (hlength ▸ hi)
    simp only [List.get_eq_getElem] at hstage hx
    simp only [SharedRun.wake, List.getElem?_eq_getElem hi, List.getElem?_eq_getElem (hlength ▸ hi),
      ← hstage]
    exact h.advance (List.forall₂_take i h.run.running)
      (List.forall₂_drop (i + 1) h.run.running) _ _ _ (hx.goOn (hbegin _) h.workspace)
  · simp only [SharedRun.wake, List.getElem?_eq_none (Nat.not_lt.mp hi),
      List.getElem?_eq_none (hlength ▸ Nat.not_lt.mp hi)]
    exact h

/-- A schedule keeps two runs alike. -/
theorem Alike.play (h : Alike agentId runId nodes s s')
    (hbegin : ∀ stage e e', Envelope.Alike agentId runId e e' →
      (begin stage cancelled e).Alike (Workspace.Alike agentId runId nodes)
        (Outcome.Alike agentId runId) (begin' stage cancelled e')) (schedule : List Nat) :
    Alike agentId runId nodes (s.play limit begin cancelled reply schedule)
      (s'.play limit begin' cancelled reply schedule) := by
  induction schedule generalizing s s' with
  | nil => exact h
  | cons i schedule ih => exact ih (h.wake hbegin i)

/-- Two runs that nobody can tell apart. -/
structure Same (s s' : SharedRun stages) : Prop where
  ended : s.run.running = [] ↔ s'.run.running = []
  asked : s.asked = s'.asked
  content : s.run.result.content = s'.run.result.content

theorem Alike.same (h : Alike agentId runId nodes s s') : s.Same s' where
  ended := by
    rw [← List.length_eq_zero_iff, ← List.length_eq_zero_iff, h.run.running.length_eq]
  asked := h.asked
  content := h.run.result

end SharedRun

end Runs

namespace Engine

variable {engine engine' : Engine} {context : NodeContext}
  {reply : (request : Request) → request.Reply} {pipeline : List NodeConfig}
  {input : Envelope Value} {agentId runId : String}

/-- A run is the same in two engines, whatever the schedule is. -/
def Same (engine engine' : Engine) (context : NodeContext)
    (reply : (request : Request) → request.Reply) (pipeline : List NodeConfig)
    (input : Envelope Value) : Prop :=
  ∀ schedule, (engine.play context reply pipeline input schedule).Same
    (engine'.play context reply pipeline input schedule)

/-- In particular it is the same if requests are answered at once. -/
theorem Same.content_run (h : engine.Same engine' context reply pipeline input) :
    (engine.run context (answering reply) pipeline input ()).1.content =
      (engine'.run context (answering reply) pipeline input ()).1.content := by
  obtain ⟨n, hrun⟩ := engine.exists_play_run context reply pipeline input
  obtain ⟨n', hrun'⟩ := engine'.exists_play_run context reply pipeline input
  rw [← (hrun (max n n') (Nat.le_max_left ..)).2, ← (hrun' (max n n') (Nat.le_max_right ..)).2]
  exact (h _).content

/-- **A run of standard nodes looks at nothing but its groups.** It is the same in two engines that
hold the same in the groups of its nodes that merge envelopes. -/
theorem same_of_alike (hsettings : engine.settings = engine'.settings)
    (hregistry : engine.registry = .standard) (hregistry' : engine'.registry = .standard)
    (hworkspace : Workspace.Alike agentId runId
      (fun nodeId => ∃ node ∈ pipeline, node.nodeType = Aggregate.definition.info.typeId ∧
        node.id = nodeId) engine.workspace engine'.workspace)
    (hinput : input.InRun agentId runId) : engine.Same engine' context reply pipeline input := by
  intro schedule
  have hstart : SharedRun.Alike agentId runId _
      (.begin engine.settings.maxParallel engine.workspace input : SharedRun pipeline.length)
      (.begin engine.settings.maxParallel engine'.workspace input) :=
    SharedRun.alike_begin _ hworkspace ⟨rfl, hinput.1, hinput.2⟩
  rw [play, play, hregistry, hregistry', ← hsettings]
  refine (hstart.play (fun stage e e' he => ?_) schedule).same
  exact Registry.alike_execute _ he fun htype => ⟨_, List.get_mem pipeline stage, htype, rfl⟩

/-! ## Runs under an identity that was used before -/

/-- An engine that nothing has used. -/
def new (settings : EngineSettings) (supply : Supply) : Engine where
  settings := settings
  workspace := { supply }

/-- The engine when a run has come so far. -/
def after {stages : Nat} (engine : Engine) (s : SharedRun stages) : Engine :=
  { engine with workspace := s.workspace }

variable (reply) in
/-- A run through one node that emits one envelope at once. -/
theorem result_play_singleton {node : NodeConfig} {e : Envelope Value} {workspace : Workspace}
    (h : engine.registry.begin context [node] ⟨0, Nat.one_pos⟩ context.cancelled input
      engine.workspace = .finished workspace (.ok (.single e))) :
    (engine.play context reply [node] input [0]).run =
      ⟨[], [], { outputs := [e], executions := 1 }⟩ := by
  have hstart : (SharedRun.begin engine.settings.maxParallel engine.workspace input :
      SharedRun [node].length).run = ⟨[], [(⟨0, Nat.one_pos⟩, .fresh input)], {}⟩ := by
    simp [SharedRun.begin, SharedRun.filled, RunState.fill, RunState.start, RunState.fillFrom]
  have hworkspace : (SharedRun.begin engine.settings.maxParallel engine.workspace input :
      SharedRun [node].length).workspace = engine.workspace := rfl
  rw [play, SharedRun.play, List.foldl_cons, List.foldl_nil, SharedRun.wake, hstart, hworkspace]
  simp only [List.getElem?_cons_zero, Execution.goOn, h]
  simp [SharedRun.advance, SharedRun.filled, RunState.fill, RunState.settle, RunState.fillFrom,
    hstart]

/-- A node that merges what has arrived, without waiting for more. -/
def mergeAtOnce (nodeId : String) : NodeConfig where
  id := nodeId
  nodeType := "flow.aggregate"
  config := Dict.ofList [("partial_results", .bool true)]

/-- An execution of such a node emits what was left in its group, with its input. -/
theorem exists_begin_mergeAtOnce (hregistry : engine.registry = .standard)
    (hcontext : context.cancelled = false) (hinput : input.InRun agentId runId) (nodeId : String) :
    ∃ workspace e, engine.registry.begin context [mergeAtOnce nodeId] ⟨0, Nat.one_pos⟩
        context.cancelled input engine.workspace = .finished workspace (.ok (.single e)) ∧
      e.data = .array ((engine.workspace.groups.items ⟨agentId, runId, nodeId⟩).map
        (fun e => e.data) ++ [input.data]) := by
  let c : Aggregate.Call :=
    ⟨mergeAtOnce nodeId, input, engine.workspace.supply, engine.workspace.variableStore⟩
  let left := (Aggregate.run c.node input engine.workspace).2
  have hkey : c.key = ⟨agentId, runId, nodeId⟩ := by
    rw [Aggregate.Call.key, Aggregate.key, hinput.1, hinput.2]
    rfl
  obtain ⟨first, rest, hitems⟩ :=
    Aggregate.Call.exists_first (engine.workspace.groups.items c.key) c.copy
  have hanswer : (c.execute engine.workspace.groups).1 = .ok (.single (c.whole first rest)) := by
    have hsettings : c.settings = .ok (none, true) := rfl
    rw [Aggregate.Call.execute_of_ok hsettings hitems]
    simp only [not_true_eq_false, and_false, if_false]
  have hdefinition : Aggregate.definition.execute context c.node input engine.workspace =
      .finished left (.ok (.single (c.whole first rest))) := hanswer ▸ rfl
  have hprovides : Registry.standard.Provides c.node.nodeType Aggregate.definition := rfl
  obtain ⟨o, supply, hexec, ho⟩ := Registry.exists_execute_of_finished hprovides hcontext hdefinition
  obtain rfl := Outcome.eq_ok_of_answer ho
  refine ⟨{ left with supply }, c.whole first rest, ?_, ?_⟩
  · rw [hregistry]
    exact hexec
  · change (Aggregate.mergedMessage nodeId first.toMessage (rest.map Envelope.toMessage)).data = _
    rw [Aggregate.mergedMessage_data, ← List.map_cons, List.map_map, ← hitems, hkey, List.map_append]
    rfl

variable (engine context reply) in
/-- So does a run of it. -/
theorem exists_run_mergeAtOnce (hregistry : engine.registry = .standard)
    (hcontext : context.cancelled = false) (hinput : input.InRun agentId runId) (nodeId : String) :
    ∃ e, (engine.run context (answering reply) [mergeAtOnce nodeId] input ()).1.outputs = [e] ∧
      e.data = .array ((engine.workspace.groups.items ⟨agentId, runId, nodeId⟩).map
        (fun e => e.data) ++ [input.data]) := by
  obtain ⟨workspace, e, hbegin, hdata⟩ :=
    exists_begin_mergeAtOnce hregistry hcontext hinput nodeId
  have hplay := result_play_singleton reply hbegin
  refine ⟨e, ?_, hdata⟩
  rw [run_of_ended (k := 1) (congrArg RunState.running hplay)]
  exact congrArg (fun r => r.result.outputs) hplay

/-- A group that makes no difference to such a run is empty. -/
theorem items_eq_nil_of_content_run (hregistry : engine.registry = .standard)
    (hregistry' : engine'.registry = .standard) (hcontext : context.cancelled = false)
    (hinput : input.InRun agentId runId) {nodeId : String}
    (hnone : engine'.workspace.groups.items ⟨agentId, runId, nodeId⟩ = [])
    (h : (engine.run context (answering reply) [mergeAtOnce nodeId] input ()).1.content =
      (engine'.run context (answering reply) [mergeAtOnce nodeId] input ()).1.content) :
    engine.workspace.groups.items ⟨agentId, runId, nodeId⟩ = [] := by
  obtain ⟨e, he, hdata⟩ :=
    exists_run_mergeAtOnce engine context reply hregistry hcontext hinput nodeId
  obtain ⟨e', he', hdata'⟩ :=
    exists_run_mergeAtOnce engine' context reply hregistry' hcontext hinput nodeId
  have houtputs := congrArg ResultContent.outputs h
  simp only [RunResult.content, he, he', List.map_cons, List.map_nil, List.cons.injEq] at houtputs
  have hequal : e.data = e'.data := by
    change e.content.data = e'.content.data
    rw [houtputs.1]
  rw [hdata, hdata', hnone] at hequal
  simpa using hequal

/-- An envelope of a run, with nothing in it. -/
def blank (agentId runId : String) : Envelope Value :=
  { Message.new .null (.start agentId runId "input") with id := .ofNat 0, issuedAt := default }

/-- **What a run leaves behind is its open groups.** An engine is used for a run, under any
schedule, and told that the run is over; requests are answered by a function. A run under the same
identity is then the same as in an engine that nothing has used, under any schedule, if the first one
has left no group open at those of its nodes that merge envelopes. All such runs end with the same
results if and only if the first one has left no group open. -/
theorem content_run_iff_idle (settings : EngineSettings) (supply supply' : Supply)
    (agentId runId : String) (reply : (request : Request) → request.Reply)
    (first : List NodeConfig) (input : Envelope Value) (schedule : List Nat) :
    let fresh := new settings supply'
    let context := fresh.context agentId runId
    let before := new settings supply
    let run := before.play context reply first input schedule
    let used := (before.after run).finishRun runId
    (∀ second input', input'.InRun agentId runId →
        (∀ node ∈ second, node.nodeType = Aggregate.definition.info.typeId →
          run.workspace.groups.items ⟨agentId, runId, node.id⟩ = []) →
        used.Same fresh context reply second input') ∧
      ((∀ second input', input'.InRun agentId runId →
          (used.run context (answering reply) second input' ()).1.content =
            (fresh.run context (answering reply) second input' ()).1.content) ↔
        run.workspace.groups.Idle agentId runId) := by
  intro fresh context before run used
  have hsame : ∀ second input', input'.InRun agentId runId →
      (∀ node ∈ second, node.nodeType = Aggregate.definition.info.typeId →
        run.workspace.groups.items ⟨agentId, runId, node.id⟩ = []) →
      used.Same fresh context reply second input' := by
    refine fun second input' hinput' hclosed => same_of_alike rfl rfl rfl ?_ hinput'
    rintro nodeId ⟨node, hnode, htype, rfl⟩
    -- The end of a run is told to the variables alone, so the groups are those of the run.
    have hleft : used.workspace.groups.items ⟨agentId, runId, node.id⟩ = [] :=
      hclosed node hnode htype
    rw [hleft]
    exact .nil
  refine ⟨hsame, fun h nodeId => ?_, fun h second input' hinput' =>
    (hsame second input' hinput' fun node _ _ => h node.id).content_run⟩
  have hblank : (blank agentId runId).InRun agentId runId := ⟨rfl, rfl⟩
  exact items_eq_nil_of_content_run rfl rfl rfl hblank rfl (h [mergeAtOnce nodeId] _ hblank)

/-- Merges two envelopes. -/
def collectTwo : List NodeConfig :=
  [{ id := "collect", nodeType := "flow.aggregate",
     config := Dict.ofList [("expected_count", .string "2")] }]

/-- A run on one of two envelopes, in an engine that has no platform. -/
def runCollect (engine : Engine) (text : String) : RunResult × Engine :=
  let (result, after, _) := engine.run (engine.context "orders" "run-1")
    (answering fun request => (Offline.reply default request (.new {})).1) collectTwo
    (sampleEnvelope 0 (.string text)) ()
  (result, after)

/-- The engine after a run that was left incomplete and is over. -/
def leftIncomplete : Engine := (runCollect (new {} ⟨1, default⟩) "first").2.finishRun "run-1"

/-- The next run under the same identity merges what the run before has left. In an engine that
nothing has used it waits. -/
theorem content_run_leftIncomplete :
    (runCollect leftIncomplete "second").1.outputs.map (fun e => e.data) =
        [.array [.string "first", .string "second"]] ∧
      (runCollect leftIncomplete "second").1.pending = 0 ∧
      (runCollect (new {} ⟨1, default⟩) "second").1.outputs = [] ∧
      (runCollect (new {} ⟨1, default⟩) "second").1.pending = 1 ∧
      (runCollect leftIncomplete "second").1.content ≠
        (runCollect (new {} ⟨1, default⟩) "second").1.content := by
  have hused : (runCollect leftIncomplete "second").1.outputs.map (fun e => e.data) =
      [.array [.string "first", .string "second"]] ∧
        (runCollect leftIncomplete "second").1.pending = 0 := by
    simp only [leftIncomplete, runCollect, run_eq]
    exact ⟨rfl, rfl⟩
  have hfresh : (runCollect (new {} ⟨1, default⟩) "second").1.outputs = [] ∧
      (runCollect (new {} ⟨1, default⟩) "second").1.pending = 1 := by
    simp only [runCollect, run_eq]
    exact ⟨rfl, rfl⟩
  refine ⟨hused.1, hused.2, hfresh.1, hfresh.2, fun h => ?_⟩
  have hpending : (runCollect leftIncomplete "second").1.pending =
      (runCollect (new {} ⟨1, default⟩) "second").1.pending := congrArg ResultContent.pending h
  rw [hused.2, hfresh.2] at hpending
  cases hpending

end Engine

end FlowEngine
