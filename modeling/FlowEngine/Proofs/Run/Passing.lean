import FlowEngine.Engine
import FlowEngine.Proofs.Run.Levels
import FlowEngine.Proofs.Run.Outcomes

/-!
# Nodes that let envelopes through

Many nodes take one envelope and let it go on by itself, with another payload and otherwise as it was,
unless they fail on it. Through a chain of such nodes a number of envelopes goes like through a sieve:
what comes out is what went in, in the same order and with the same metadata, except for those on which
some node has failed.

## Main definitions

* `Registry.Provides`: the node type that a registry has under a name.
* `Outcome.answer`: what the node of an execution has answered.
* `TypedNode.Forwards`: a typed node that forwards an answer to the payload.
* `Groups.Idle`: no group of a run is open.
* `Engine.Passes`: a node that lets an envelope through, or fails, and leaves the metadata alone.
* `Survived`: what a chain of such nodes makes of envelopes.

## Main results

* `Registry.exists_execute_of_finished`, `Engine.exists_execute_of_finished`: an execution whose node asks
  for nothing.
* `TypedNode.Forwards.execute_cases`: a typed node between the adapter's steps.
* `Engine.passes_log`, `Engine.passes_parse`, `Engine.passes_stringify`: nodes that let envelopes
  through.
* `Engine.survived_chain`: what a chain does.
-/

namespace FlowEngine

/-! ## Executions whose node finishes at once -/

/-- The node type that a registry has under a name. -/
def Registry.Provides (registry : Registry) (nodeType : String) (definition : NodeDefinition) :
    Prop :=
  registry.definition nodeType = .ok definition

/-- What a node has answered. -/
def Outcome.answer : Outcome → Except NodeError NodeOutput
  | .ok output => .ok output
  | .error failure => .error failure.error

/-- Outputs are passed on as they are. -/
theorem Outcome.eq_ok_of_answer {o : Outcome} {output : NodeOutput} (h : o.answer = .ok output) :
    o = .ok output := by
  cases o with
  | ok output' => exact congrArg Except.ok (Except.ok.inj h)
  | error failure => cases h

theorem Outcome.exists_failure_of_answer {o : Outcome} {error : NodeError} (h : o.answer = .error error) :
    ∃ failure, o = .error failure ∧ failure.error = error := by
  cases o with
  | ok output => cases h
  | error failure => exact ⟨failure, rfl, Except.error.inj h⟩

section Execution

variable {σ : Type} {engine : Engine} {context : NodeContext}
  {reply : (request : Request) → σ → request.Reply × σ} {node : NodeConfig}
  {definition : NodeDefinition} {e : Envelope Value} {workspace later : Workspace}
  {answer : Except NodeError NodeOutput}

theorem Registry.dispatch_of_provides {registry : Registry}
    (hp : registry.Provides node.nodeType definition) (hc : context.cancelled = false) :
    registry.dispatch context node e = definition.execute context node e := by
  rw [Provides] at hp
  rw [dispatch, hc, hp]
  rfl

/-- An execution whose node finishes without asking for anything. The envelope of a failure is drawn from
the supply. -/
theorem Registry.exists_execute_of_finished {registry : Registry}
    (hp : registry.Provides node.nodeType definition) (hc : context.cancelled = false)
    (h : definition.execute context node e workspace = .finished later answer) :
    ∃ (o : Outcome) (supply : Supply),
      registry.execute context node e workspace = .finished { later with supply } o ∧
        o.answer = answer := by
  rw [execute, Activity.bind_apply, dispatch_of_provides hp hc, h]
  cases answer with
  | ok output => exact ⟨_, _, rfl, rfl⟩
  | error error => exact ⟨_, _, rfl, rfl⟩

variable (reply) in
/-- The same in a run. -/
theorem Engine.exists_execute_of_finished (hp : engine.registry.Provides node.nodeType definition)
    (hc : context.cancelled = false)
    (h : definition.execute context node e workspace = .finished later answer) (s : σ) :
    ∃ (o : Outcome) (supply : Supply),
      engine.execute context reply node e (workspace, s) = (o, { later with supply }, s) ∧
        o.answer = answer := by
  obtain ⟨o, supply, hexec, ho⟩ := Registry.exists_execute_of_finished hp hc h
  refine ⟨o, supply, ?_, ho⟩
  rw [execute, hexec]
  rfl

/-- A failure carries its input forward, and records the error. -/
theorem Registry.content_of_failure {registry : Registry} {failure : NodeFailure}
    (h : (registry.execute context node e workspace).MayFinish (.error failure)) :
    failure.content = (failure.error, (failureMessage default node e.content failure.error).undated) := by
  rcases Registry.execute_cases h with ⟨_, _, ho⟩ | ⟨error, failure', _, ho, hcontent⟩
  · cases ho
  · obtain rfl := Except.error.inj ho
    obtain rfl : failure.error = error := congrArg Prod.fst hcontent
    exact hcontent

/-- So its metadata is kept. -/
theorem Engine.metadata_of_failure {s : σ} {failure : NodeFailure}
    (h : (engine.execute context reply node e (workspace, s)).1 = .error failure) :
    failure.envelope.metadata = e.metadata := by
  have hmay := Turn.mayFinish_settle reply s (engine.registry.execute context node e workspace)
  rw [Engine.execute] at h
  rw [h] at hmay
  exact congrArg (fun x : NodeError × Message Value => x.2.metadata) (Registry.content_of_failure hmay)

end Execution

/-! ## Typed nodes -/

/-- All that a typed node does is forward an answer to the payload, if there is one. -/
def TypedNode.Forwards {ι ο : Type} [Payload ι] [Payload ο] (typed : TypedNode ι ο)
    (answer : NodeConfig → ι → Except NodeError ο) : Prop :=
  ∀ context node e, typed.execute context node e =
    Activity.attempt ((answer node e.data).map fun data => e.forward node.id data)

/-- Between its neighbours, such a node forwards the answer's representation. -/
theorem TypedNode.Forwards.execute_cases {ι ο : Type} [Payload ι] [Payload ο] {typed : TypedNode ι ο}
    {answer : NodeConfig → ι → Except NodeError ο} (h : typed.Forwards answer) (context : NodeContext)
    (node : NodeConfig) (e : Envelope Value) (workspace : Workspace) :
    (∃ error supply, (e.data.decode ι).bind (answer node) = .error error ∧
      typed.definition.execute context node e workspace =
        .finished { workspace with supply } (.error error)) ∨
    ∃ data supply e', (e.data.decode ι).bind (answer node) = .ok data ∧
      typed.definition.execute context node e workspace =
        .finished { workspace with supply } (.ok (.single e')) ∧
      e'.toMessage = e.toMessage.forward node.id (Value.encode data) := by
  simp only [definition, accept]
  cases hdecode : e.data.decode ι with
  | error error => exact .inl ⟨error, workspace.supply, rfl, rfl⟩
  | ok payload =>
    let accepted := e.derive payload e.trace workspace.supply
    have hexec := congrFun (h context node accepted.1) { workspace with supply := accepted.2 }
    have hpayload : accepted.1.data = payload := rfl
    rw [hpayload] at hexec
    cases hanswer : answer node payload with
    | error error =>
      rw [hanswer] at hexec
      exact .inl ⟨error, accepted.2, hanswer, congrArg (Turn.andThen _) hexec⟩
    | ok data =>
      rw [hanswer] at hexec
      exact .inr ⟨data, _, _, hanswer, congrArg (Turn.andThen _) hexec, rfl⟩

/-- The layout that a node writes in. -/
def NodeConfig.jsonLayout (node : NodeConfig) : Json.Layout :=
  if (node.flag? "pretty").getD false then .indented else .compact

theorem JsonStringify.forwards_typed :
    JsonStringify.typed.Forwards fun node json => .ok (json.render node.jsonLayout) :=
  fun _ _ _ => rfl

/-- The document that a text is, if it is one. -/
def JsonParse.read (text : String) : Except NodeError Json :=
  (Json.parse (.ofString text)).mapError fun fault =>
    .executionFailed ("JSON parse error: " ++ fault.message)

theorem JsonParse.forwards_typed : JsonParse.typed.Forwards fun _ text => read text := by
  intro context node e
  refine congrArg Activity.attempt ?_
  simp only [JsonParse.run, read]
  cases Json.parse (.ofString e.data) <;> rfl

/-! ## Letting envelopes through -/

/-- The envelope belongs to a run. -/
def Envelope.InRun (agentId runId : String) (e : Envelope Value) : Prop :=
  e.trace.agentId = agentId ∧ e.trace.runId = runId

/-- No group of the run is open. -/
def Groups.Idle (g : Groups) (agentId runId : String) : Prop :=
  ∀ nodeId, g.items ⟨agentId, runId, nodeId⟩ = []

/-- One envelope of the same run with the same metadata goes on, or the execution has failed. -/
def Outcome.Passes (agentId runId : String) (e : Envelope Value) : Outcome → Prop
  | .ok (.single e') => e'.InRun agentId runId ∧ e'.metadata = e.metadata
  | .ok _ => False
  | .error _ => True

/-- A node that lets the envelopes of a run through one by one, unless it fails, and leaves their
metadata alone. It opens no groups for the run. -/
def Engine.Passes {σ : Type} (engine : Engine) (context : NodeContext)
    (reply : (request : Request) → σ → request.Reply × σ) (agentId runId : String)
    (node : NodeConfig) : Prop :=
  ∀ (e : Envelope Value) (workspace : Workspace) (s : σ), e.InRun agentId runId →
    workspace.groups.Idle agentId runId →
    Outcome.Passes agentId runId e (engine.execute context reply node e (workspace, s)).1 ∧
      (engine.execute context reply node e (workspace, s)).2.1.groups.Idle agentId runId

/-- What comes of envelopes that pass nodes one by one: those that have got through, in their order,
and those on which a node has failed. -/
structure Survived (agentId runId : String) (es : List (Envelope Value)) (r : RunResult) : Prop where
  inRun : ∀ e ∈ r.outputs, e.InRun agentId runId
  order : (r.outputs.map fun e => e.metadata).Sublist (es.map fun e => e.metadata)
  accounted : ((r.outputs.map fun e => e.metadata) ++
    r.failures.map fun f => f.envelope.metadata).Perm (es.map fun e => e.metadata)
  pending : r.pending = 0

section Passing

variable {σ : Type} {engine : Engine} {context : NodeContext}
  {reply : (request : Request) → σ → request.Reply × σ} {agentId runId : String}

/-- A node type that answers at once, without touching anything but the supply, with one envelope that
stays in its run and keeps its metadata. -/
theorem Engine.passes_of_provides {node : NodeConfig} {definition : NodeDefinition}
    (hp : engine.registry.Provides node.nodeType definition) (hc : context.cancelled = false)
    (h : ∀ (e : Envelope Value) (workspace : Workspace), ∃ answer supply,
      definition.execute context node e workspace = .finished { workspace with supply } answer ∧
        ∀ output, answer = .ok output → ∃ e' : Envelope Value, output = .single e' ∧
          e'.metadata = e.metadata ∧ e'.trace.agentId = e.trace.agentId ∧
            e'.trace.runId = e.trace.runId) :
    engine.Passes context reply agentId runId node := by
  intro e workspace s hrun hidle
  obtain ⟨answer, supply, hanswer, houtput⟩ := h e workspace
  obtain ⟨o, supply', hexec, ho⟩ := exists_execute_of_finished reply hp hc hanswer s
  rw [hexec]
  refine ⟨?_, hidle⟩
  cases o with
  | error failure => trivial
  | ok output =>
    obtain ⟨e', rfl, hmetadata, hagent, hrunId⟩ := houtput output ho.symm
    exact ⟨⟨hagent.trans hrun.1, hrunId.trans hrun.2⟩, hmetadata⟩

theorem Engine.passes_log {node : NodeConfig}
    (hp : engine.registry.Provides node.nodeType DebugLog.definition)
    (hc : context.cancelled = false) : engine.Passes context reply agentId runId node :=
  passes_of_provides hp hc fun e _ => ⟨_, _, rfl, fun output h => by
    obtain rfl := Except.ok.inj h
    exact ⟨_, rfl, rfl, rfl, rfl⟩⟩

/-- A typed node passes its envelopes if all it does is forward an answer to the payload. -/
theorem Engine.passes_typed {ι ο : Type} [Payload ι] [Payload ο] {typed : TypedNode ι ο}
    {answer : NodeConfig → ι → Except NodeError ο} (hforwards : typed.Forwards answer) {node : NodeConfig}
    (hp : engine.registry.Provides node.nodeType typed.definition) (hc : context.cancelled = false) :
    engine.Passes context reply agentId runId node := by
  refine passes_of_provides hp hc fun e workspace => ?_
  rcases hforwards.execute_cases context node e workspace with
    ⟨error, supply, -, hexec⟩ | ⟨data, supply, e', -, hexec, he'⟩
  · exact ⟨_, supply, hexec, nofun⟩
  · refine ⟨_, supply, hexec, fun output h => ⟨e', (Except.ok.inj h).symm, ?_⟩⟩
    exact ⟨(congrArg Message.metadata he').trans rfl, (congrArg (fun m => m.trace.agentId) he').trans rfl,
      (congrArg (fun m => m.trace.runId) he').trans rfl⟩

theorem Engine.passes_parse {node : NodeConfig}
    (hp : engine.registry.Provides node.nodeType JsonParse.definition)
    (hc : context.cancelled = false) : engine.Passes context reply agentId runId node :=
  passes_typed JsonParse.forwards_typed hp hc

theorem Engine.passes_stringify {node : NodeConfig}
    (hp : engine.registry.Provides node.nodeType JsonStringify.definition)
    (hc : context.cancelled = false) : engine.Passes context reply agentId runId node :=
  passes_typed JsonStringify.forwards_typed hp hc

/-! ### A chain -/

theorem Survived.refl {es : List (Envelope Value)} (h : ∀ e ∈ es, e.InRun agentId runId) :
    Survived agentId runId es (.ofOutputs es) where
  inRun := h
  order := .refl _
  accounted := by simp [RunResult.ofOutputs]
  pending := rfl

/-- One more envelope. -/
theorem Survived.cons {e : Envelope Value} {es : List (Envelope Value)} {o : Outcome}
    {os : List Outcome} (ho : Outcome.Passes agentId runId e o)
    (hfailure : ∀ failure, o = .error failure → failure.envelope.metadata = e.metadata)
    (h : Survived agentId runId es (levelResult os ++ .ofOutputs (os.flatMap Outcome.emitted))) :
    Survived agentId runId (e :: es)
      (levelResult (o :: os) ++ .ofOutputs ((o :: os).flatMap Outcome.emitted)) := by
  obtain ⟨hrun, horder, haccounted, hpending⟩ := h
  simp only [levelResult, RunResult.ofOutputs, RunResult.outputs_append, RunResult.failures_append,
    RunResult.pending_append, List.nil_append, List.append_nil, Nat.add_zero] at *
  cases o with
  | error failure =>
    constructor
    · simpa [Outcome.emitted] using hrun
    · simpa [Outcome.emitted] using horder.cons _
    · simpa [Outcome.emitted, List.filterMap_cons, Outcome.failure?, hfailure failure rfl] using
        List.perm_middle.trans (haccounted.cons e.metadata)
    · simpa [Outcome.isPending] using hpending
  | ok emission =>
    cases emission with
    | many es => exact ho.elim
    | pending => exact ho.elim
    | single e' =>
      obtain ⟨he', hmetadata⟩ := ho
      constructor
      · simpa [Outcome.emitted, he'] using hrun
      · simpa [Outcome.emitted, hmetadata] using horder
      · simpa [Outcome.emitted, List.filterMap_cons, Outcome.failure?, hmetadata] using haccounted
      · simpa [Outcome.isPending] using hpending

/-- One node after the other. -/
theorem Survived.trans {es : List (Envelope Value)} {os : List Outcome} {r : RunResult}
    (h : Survived agentId runId es (levelResult os ++ .ofOutputs (os.flatMap Outcome.emitted)))
    (hr : Survived agentId runId (os.flatMap Outcome.emitted) r) :
    Survived agentId runId es (levelResult os ++ r) := by
  obtain ⟨-, horder, haccounted, hpending⟩ := h
  simp only [levelResult, RunResult.ofOutputs, RunResult.outputs_append, RunResult.failures_append,
    RunResult.pending_append, List.nil_append, List.append_nil, Nat.add_zero] at *
  refine ⟨hr.inRun, hr.order.trans horder, ?_, by simp [hpending, hr.pending]⟩
  simp only [RunResult.outputs_append, RunResult.failures_append, List.map_append, List.nil_append]
  -- The failures of the level come first, and before them what has got through.
  exact (List.perm_append_comm_assoc ..).trans <| (hr.accounted.append_left _).trans <|
    List.perm_append_comm.trans haccounted

theorem Engine.survived_level {node : NodeConfig}
    (h : engine.Passes context reply agentId runId node) {es : List (Envelope Value)}
    (hes : ∀ e ∈ es, e.InRun agentId runId) (workspace : Workspace) (s : σ)
    (hidle : workspace.groups.Idle agentId runId) :
    let (os, later, _) := runLevel (engine.execute context reply node) es (workspace, s)
    Survived agentId runId es (levelResult os ++ .ofOutputs (os.flatMap Outcome.emitted)) ∧
      later.groups.Idle agentId runId := by
  induction es generalizing workspace s with
  | nil => exact ⟨.refl (by simp), hidle⟩
  | cons e es ih =>
    obtain ⟨hpasses, hlater⟩ := h e workspace s (hes e (by simp)) hidle
    obtain ⟨hrest, hidle⟩ := ih (fun e he => hes e (by simp [he])) _
      (engine.execute context reply node e (workspace, s)).2.2 hlater
    exact ⟨hrest.cons hpasses fun failure hf => engine.metadata_of_failure hf, hidle⟩

/-- **What a chain does.** -/
theorem Engine.survived_chain {chain : List NodeConfig}
    (h : ∀ node ∈ chain, engine.Passes context reply agentId runId node)
    {es : List (Envelope Value)} (hes : ∀ e ∈ es, e.InRun agentId runId) (workspace : Workspace)
    (s : σ) (hidle : workspace.groups.Idle agentId runId) :
    let (r, later, _) := runLevels (chain.map (engine.execute context reply)) es (workspace, s)
    Survived agentId runId es r ∧ later.groups.Idle agentId runId := by
  induction chain generalizing es workspace s with
  | nil => exact ⟨.refl hes, hidle⟩
  | cons node chain ih =>
    obtain ⟨hlevel, hlater⟩ := survived_level (h node (by simp)) hes workspace s hidle
    obtain ⟨hrest, hidle⟩ := ih (fun node hn => h node (by simp [hn])) hlevel.inRun _
      (runLevel (engine.execute context reply node) es (workspace, s)).2.2 hlater
    exact ⟨hlevel.trans hrest, hidle⟩

end Passing

end FlowEngine
