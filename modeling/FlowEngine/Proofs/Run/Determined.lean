import FlowEngine.Proofs.Run.Alike

/-!
# Nodes whose outcome is determined

The outcome of a node may be a function of what it is given: its configuration and what the envelope
says. Then it does not matter when it executes, what others have done by then, or what it is answered.

Nodes that neither use shared state nor ask for anything are of this kind, provided that they do not
look at identities and times. Five of the standard nodes are. Merging is not, since it depends on what
has come before; nor are requests and calls, since they depend on others.

## Main definitions

* `Determined`: the outcomes of a pipeline's nodes are given by a function.
* `Stateless`: a node that uses nothing but its input.
* `statelessOutcome`: what such nodes make of a message.

## Main results

* `determined_statelessOutcome`: the outcomes of stateless nodes are determined.
* `determined_standard`: so are those of pipelines that split, batch, log, read and write JSON.
-/

namespace FlowEngine

/-- The outcomes of the nodes of a pipeline are a function of what the envelope says, whatever else
the node finds, and whatever it is answered. -/
def Determined (registry : Registry) (context : NodeContext) (pipeline : List NodeConfig)
    (outcome : NodeConfig → Message Value → Except NodeError Said) : Prop :=
  ∀ node ∈ pipeline, ∀ (input : Envelope Value) (state : Workspace) (o : Except NodeError NodeOutput),
    (registry.dispatch context node input state).MayFinish o →
      o.map NodeOutput.content = outcome node input.content

/-- A message as an envelope, with an identity and a time that do not matter. -/
def Message.anonymous (m : Message Value) : Envelope Value :=
  { m with id := default, issuedAt := default }

/-- A node that answers at once, and answers the same to envelopes that say the same. -/
def Stateless (definition : NodeDefinition) : Prop :=
  ∀ (context : NodeContext) (node : NodeConfig) (e e' : Envelope Value) (state state' : Workspace),
    e.content = e'.content →
    ∃ later later' o o', definition.execute context node e state = .finished later o ∧
      definition.execute context node e' state' = .finished later' o' ∧
        o.map NodeOutput.content = o'.map NodeOutput.content

/-- What a node makes of a message, if it uses nothing else. -/
def statelessOutcome (registry : Registry) (context : NodeContext) (node : NodeConfig)
    (m : Message Value) : Except NodeError Said :=
  match registry.dispatch context node m.anonymous { supply := ⟨0, default⟩ } with
  | .finished _ o => o.map NodeOutput.content
  | .waiting .. => .ok .pending

/-- **The outcomes of nodes that use nothing but their input are determined.** -/
theorem determined_statelessOutcome {registry : Registry} {context : NodeContext}
    {pipeline : List NodeConfig}
    (h : ∀ node ∈ pipeline, ∀ definition, registry.definition node.nodeType = .ok definition →
      Stateless definition) :
    Determined registry context pipeline (statelessOutcome registry context) := by
  intro node hnode input state o ho
  unfold Registry.dispatch at ho
  unfold statelessOutcome Registry.dispatch
  split at ho
  · rename_i hc
    obtain rfl := Turn.mayFinish_finished_iff.mp ho
    simp only [hc, if_true]
    rfl
  · rename_i hc
    cases hdefinition : registry.definition node.nodeType with
    | error e =>
      rw [hdefinition] at ho
      obtain rfl := Turn.mayFinish_finished_iff.mp ho
      simp only [hc]
      rfl
    | ok definition =>
      have hsame : input.content = input.content.anonymous.content :=
        (Message.undated_undated input.toMessage).symm
      obtain ⟨later, later', o', answer, hexec, hexec', hcontent⟩ :=
        h node hnode definition hdefinition context node _ _ state { supply := ⟨0, default⟩ } hsame
      simp only [hdefinition, hexec] at ho
      obtain rfl := Turn.mayFinish_finished_iff.mp ho
      simp only [hc, Bool.false_eq_true, if_false, hexec']
      exact hcontent

/-! ## The standard nodes -/

theorem NodeOutput.Alike.content_eq {agentId runId : String} {output output' : NodeOutput}
    (h : output.Alike agentId runId output') : output.content = output'.content := by
  cases h with
  | single h => exact congrArg Said.single h.undated
  | many h =>
    refine congrArg Said.many (List.forall₂_eq_eq_eq ▸ ?_)
    rw [List.forall₂_map_left_iff, List.forall₂_map_right_iff]
    exact h.imp fun _ _ h => h.undated
  | pending => rfl

/-- Nodes whose executions cannot be told apart are stateless if they answer at once and do not keep
envelopes. -/
theorem NodeDefinition.Repeats.stateless {definition : NodeDefinition} (h : definition.Repeats)
    (hgroups : definition.info.typeId ≠ Aggregate.definition.info.typeId)
    (hfinishes : ∀ context node e state, ∃ later o,
      definition.execute context node e state = .finished later o) : Stateless definition := by
  intro context node e e' state state' hsame
  obtain ⟨later, o, hexec⟩ := hfinishes context node e state
  obtain ⟨later', o', hexec'⟩ := hfinishes context node e' state'
  refine ⟨later, later', o, o', hexec, hexec', ?_⟩
  have halike := h e.trace.agentId e.trace.runId (fun _ => False) context node e e' ⟨hsame, rfl, rfl⟩
    (fun htype => hgroups htype) state state' fun _ hnode => hnode.elim
  rw [hexec, hexec'] at halike
  cases halike with
  | finished _ ho =>
    cases ho with
    | ok ho => exact congrArg Except.ok ho.content_eq
    | error error => rfl

theorem finishes_simple (info : NodeTypeMeta)
    (run : NodeConfig → Envelope Value → Except NodeError (Issuing NodeOutput)) (context : NodeContext)
    (node : NodeConfig) (e : Envelope Value) (state : Workspace) : ∃ later o,
      (NodeDefinition.simple info run).execute context node e state = .finished later o := by
  simp only [NodeDefinition.simple]
  cases run node e with
  | error error => exact ⟨_, _, rfl⟩
  | ok work => exact ⟨_, _, rfl⟩

theorem finishes_typed {ι ο : Type} [Payload ι] [Payload ο] {typed : TypedNode ι ο}
    {answer : NodeConfig → ι → Except NodeError ο} (hforwards : typed.Forwards answer)
    (context : NodeContext) (node : NodeConfig) (e : Envelope Value) (state : Workspace) :
    ∃ later o, typed.definition.execute context node e state = .finished later o := by
  rcases hforwards.execute_cases context node e state with
    ⟨error, supply, -, hexec⟩ | ⟨data, supply, e', -, hexec, -⟩
  · exact ⟨_, _, hexec⟩
  · exact ⟨_, _, hexec⟩

/-- The standard node types that use nothing but their input. -/
def statelessTypes : List String :=
  ["flow.split", "flow.batch", "debug.log", "transform.json_parse", "transform.json_stringify"]

/-- **Pipelines that split, batch, log, read and write JSON have determined outcomes.** -/
theorem determined_standard {context : NodeContext} {pipeline : List NodeConfig}
    (h : ∀ node ∈ pipeline, node.nodeType ∈ statelessTypes) :
    Determined .standard context pipeline (statelessOutcome .standard context) := by
  refine determined_statelessOutcome fun node hnode definition hdefinition => ?_
  have htype := h node hnode
  simp only [statelessTypes, List.mem_cons, List.not_mem_nil, or_false] at htype
  rcases htype with htype | htype | htype | htype | htype <;>
    (rw [htype] at hdefinition; obtain rfl := Except.ok.inj hdefinition)
  · exact repeats_split.stateless (by decide) (finishes_simple _ _)
  · exact repeats_batch.stateless (by decide) (finishes_simple _ _)
  · exact repeats_log.stateless (by decide) (finishes_simple _ _)
  · exact (repeats_typed JsonParse.forwards_typed).stateless (by decide)
      (finishes_typed JsonParse.forwards_typed)
  · exact (repeats_typed JsonStringify.forwards_typed).stateless (by decide)
      (finishes_typed JsonStringify.forwards_typed)

end FlowEngine
