import FlowEngine.Proofs.Run.Carried
import Mathlib.Data.List.Forall2

/-!
# Executions that cannot be told apart

Two executions of a node on envelopes that say the same, in two engines with different pasts, do the
same for as long as they find the same in the workspace and are replied the same. What they find there
can only matter as far as they look, and the standard nodes do not look at much: none of them reads the
variables, none looks at identities or times, and only the node that merges envelopes looks at the
groups, and there at its own.

## What has to be kept

`Activity.Alike` relates what is left of two executions, step by step, as `Activity.Keeps` does for
one. The workspaces are related by the groups of one run, at the nodes in question; the envelopes by
what they say, and by the run that they belong to, since this is what tells groups apart.

## Main definitions

* `Turn.Alike`, `Activity.Alike`: activities that do the same.
* `Message.Alike`, `Workspace.Alike`, `Outcome.Alike`: what is the same about the rest.
* `NodeDefinition.Repeats`: a node type whose executions cannot be told apart.

## Main results

* `Activity.Alike.bind`, `Activity.alike_ask`, `Activity.alike_use`: activities piece by piece.
* `repeats_standard`: the standard nodes.
* `Registry.alike_execute`: executions of them.
-/

namespace FlowEngine

/-! ## Activities -/

/-- Two activities that do the same: they stop in workspaces that are related by `G`, ask for the same,
go on alike in any related workspaces with the same reply, and end as `Q` says. -/
inductive Turn.Alike {α : Type} (G : Workspace → Workspace → Prop) (Q : α → α → Prop) :
    Turn α → Turn α → Prop
  | finished {s s' : Workspace} {a a' : α} (hs : G s s') (h : Q a a') :
    Alike G Q (.finished s a) (.finished s' a')
  | waiting {s s' : Workspace} {request : Request}
    {resume resume' : request.Reply → Workspace → Turn α} (hs : G s s')
    (h : ∀ reply later later', G later later' →
      Alike G Q (resume reply later) (resume' reply later')) :
    Alike G Q (.waiting s request resume) (.waiting s' request resume')

/-- The same of activities that have not begun. -/
def Activity.Alike {α : Type} (G : Workspace → Workspace → Prop) (Q : α → α → Prop)
    (activity activity' : Activity α) : Prop :=
  ∀ s s', G s s' → Turn.Alike G Q (activity s) (activity' s')

section Alike

variable {α β : Type} {G : Workspace → Workspace → Prop} {P : α → α → Prop} {Q : β → β → Prop}

theorem Turn.Alike.andThen {t t' : Turn α} {next next' : α → Activity β} (h : Turn.Alike G P t t')
    (hnext : ∀ a a', P a a' → (next a).Alike G Q (next' a')) :
    Turn.Alike G Q (t.andThen next) (t'.andThen next') := by
  induction h with
  | finished hs h => exact hnext _ _ h _ _ hs
  | waiting hs _ ih => exact .waiting hs ih

theorem Activity.Alike.bind {activity activity' : Activity α} {next next' : α → Activity β}
    (h : activity.Alike G P activity')
    (hnext : ∀ a a', P a a' → (next a).Alike G Q (next' a')) :
    (activity >>= next).Alike G Q (activity' >>= next') :=
  fun s s' hs => (h s s' hs).andThen hnext

theorem Activity.alike_pure {a a' : α} (h : P a a') : (pure a : Activity α).Alike G P (pure a') :=
  fun _ _ hs => .finished hs h

theorem Activity.alike_ask (request : Request) :
    (Activity.ask request).Alike G Eq (Activity.ask request) :=
  fun _ _ hs => .waiting hs fun _ _ _ hlater => .finished hlater rfl

theorem Activity.alike_use {f f' : Workspace → α × Workspace}
    (h : ∀ s s', G s s' → G (f s).2 (f' s').2 ∧ P (f s).1 (f' s').1) :
    (Activity.use f).Alike G P (Activity.use f') :=
  fun s s' hs => .finished (h s s' hs).1 (h s s' hs).2

/-- Drawing on the supply, which may have come to different points. -/
theorem Activity.alike_issue {work work' : Issuing α}
    (hsupply : ∀ s s' supply supply', G s s' → G { s with supply } { s' with supply := supply' })
    (h : ∀ supply supply', P (work supply).1 (work' supply').1) :
    (Activity.issue work).Alike G P (Activity.issue work') :=
  alike_use fun s s' hs => ⟨hsupply s s' _ _ hs, h s.supply s'.supply⟩

end Alike

/-! ## Messages -/

/-- Two messages that say the same, and belong to the run. -/
structure Message.Alike {α : Type} (agentId runId : String) (m m' : Message α) : Prop where
  undated : m.undated = m'.undated
  agentId : m.trace.agentId = agentId
  runId : m.trace.runId = runId

section Message

variable {α β : Type} {agentId runId : String} {m m' : Message α}

theorem Message.Alike.data (h : Message.Alike agentId runId m m') : m.data = m'.data := by
  change m.undated.data = m'.undated.data
  rw [h.undated]

theorem Message.Alike.trace (h : Message.Alike agentId runId m m') : m.trace = m'.trace := by
  change m.undated.trace = m'.undated.trace
  rw [h.undated]

theorem Message.Alike.metadata (h : Message.Alike agentId runId m m') :
    m.metadata = m'.metadata := by
  change m.undated.metadata = m'.undated.metadata
  rw [h.undated]

/-- The next messages say the same if they are given the same. -/
theorem Message.Alike.derive [HasDataType β] (h : Message.Alike agentId runId m m') (data : β)
    (trace : Trace) (hagent : trace.agentId = m.trace.agentId)
    (hrun : trace.runId = m.trace.runId) :
    Message.Alike agentId runId (m.derive data trace) (m'.derive data trace) where
  undated := congrArg (fun x : Message α => x.derive data trace) h.undated
  agentId := hagent.trans h.agentId
  runId := hrun.trans h.runId

theorem Message.Alike.forward [HasDataType β] (h : Message.Alike agentId runId m m')
    (nodeId : String) (data : β) :
    Message.Alike agentId runId (m.forward nodeId data) (m'.forward nodeId data) := by
  rw [Message.forward, Message.forward, ← h.trace]
  exact h.derive data _ rfl rfl

theorem Message.Alike.withMeta (h : Message.Alike agentId runId m m') (key value : String) :
    Message.Alike agentId runId (m.withMeta key value) (m'.withMeta key value) where
  undated := congrArg (fun x : Message α => x.withMeta key value) h.undated
  agentId := h.agentId
  runId := h.runId

theorem Message.Alike.withData (h : Message.Alike agentId runId m m') (data : α) :
    Message.Alike agentId runId { m with data } { m' with data } where
  undated := congrArg (fun x : Message α => { x with data }) h.undated
  agentId := h.agentId
  runId := h.runId

theorem Message.Alike.withError (h : Message.Alike agentId runId m m') {e e' : ExecutionError}
    (he : e.undated = e'.undated) :
    Message.Alike agentId runId (m.withError e) (m'.withError e') where
  undated := by rw [Message.undated_withError, Message.undated_withError, h.undated, he]
  agentId := h.agentId
  runId := h.runId

end Message

section Merge

variable {agentId runId : String} {m m' other other' : Message Value}
  {rest rest' : List (Message Value)}

theorem Message.Alike.absorb (h : Message.Alike agentId runId m m')
    (hother : Message.Alike agentId runId other other') :
    Message.Alike agentId runId (Aggregate.absorb m other) (Aggregate.absorb m' other') where
  undated := by
    have habsorb (x y : Message Value) :
        (Aggregate.absorb x y).undated = Aggregate.absorb x.undated y.undated := by
      simp [Message.undated, Aggregate.absorb]
    rw [habsorb, habsorb, h.undated, hother.undated]
  agentId := h.agentId
  runId := h.runId

/-- Merging messages that say the same. -/
theorem Message.Alike.merge (h : Message.Alike agentId runId m m')
    (hrest : List.Forall₂ (Message.Alike agentId runId) rest rest') (nodeId : String) :
    Message.Alike agentId runId (Aggregate.mergedMessage nodeId m rest)
      (Aggregate.mergedMessage nodeId m' rest') := by
  have hdata : rest.map Message.data = rest'.map Message.data := by
    clear h
    induction hrest with
    | nil => rfl
    | cons hfirst _ ih => rw [List.map_cons, List.map_cons, hfirst.data, ih]
  have hfold {x x' : Message Value} (hx : Message.Alike agentId runId x x') :
      Message.Alike agentId runId (rest.foldl Aggregate.absorb x)
        (rest'.foldl Aggregate.absorb x') := by
    clear hdata
    induction hrest generalizing x x' with
    | nil => exact hx
    | cons hfirst _ ih => exact ih (hx.absorb hfirst)
  have hall := hfold (h.forward nodeId (Value.array []))
  simp only [Aggregate.mergedMessage, Aggregate.gather, List.map_cons, h.data, hdata, hrest.length_eq]
  exact (hall.withData _).withMeta _ _

end Merge

/-! ## What is the same about the rest -/

/-- Two envelopes that say the same. -/
abbrev Envelope.Alike (agentId runId : String) (e e' : Envelope Value) : Prop :=
  Message.Alike agentId runId e.toMessage e'.toMessage

/-- At some nodes, the groups of a run hold envelopes that say the same, and that belong to the
run. -/
def Groups.Alike (agentId runId : String) (nodes : String → Prop) (g g' : Groups) : Prop :=
  ∀ nodeId, nodes nodeId → List.Forall₂ (Envelope.Alike agentId runId)
    (g.items ⟨agentId, runId, nodeId⟩) (g'.items ⟨agentId, runId, nodeId⟩)

/-- The same of the groups in two workspaces. -/
abbrev Workspace.Alike (agentId runId : String) (nodes : String → Prop) (s s' : Workspace) : Prop :=
  s.groups.Alike agentId runId nodes s'.groups

section Groups

variable {agentId runId : String} {nodes : String → Prop} {g g' : Groups} {k : GroupKey}

theorem Groups.Alike.add (h : g.Alike agentId runId nodes g') {nodeId : String}
    (hnode : nodes nodeId) (hk : k = ⟨agentId, runId, nodeId⟩) {e e' : Envelope Value}
    (he : Envelope.Alike agentId runId e e') :
    (g.add k e).Alike agentId runId nodes (g'.add k e') := by
  subst hk
  intro nodeId' hnode'
  rw [items_add, items_add]
  split
  · exact List.rel_append (h nodeId hnode) (.cons he .nil)
  · exact h nodeId' hnode'

theorem Groups.Alike.close (h : g.Alike agentId runId nodes g') :
    (g.close k).Alike agentId runId nodes (g'.close k) := by
  intro nodeId hnode
  rw [items_close, items_close]
  split
  · exact .nil
  · exact h nodeId hnode

end Groups

/-- Two outputs of a run that say the same. -/
inductive NodeOutput.Alike (agentId runId : String) : NodeOutput → NodeOutput → Prop
  | single {e e' : Envelope Value} (h : Envelope.Alike agentId runId e e') :
    Alike agentId runId (.single e) (.single e')
  | many {es es' : List (Envelope Value)} (h : List.Forall₂ (Envelope.Alike agentId runId) es es') :
    Alike agentId runId (.many es) (.many es')
  | pending : Alike agentId runId .pending .pending

/-- Two answers of a node that say the same. -/
inductive NodeOutput.AlikeIfAny (agentId runId : String) :
    Except NodeError NodeOutput → Except NodeError NodeOutput → Prop
  | ok {output output' : NodeOutput} (h : output.Alike agentId runId output') :
    AlikeIfAny agentId runId (.ok output) (.ok output')
  | error (e : NodeError) : AlikeIfAny agentId runId (.error e) (.error e)

/-- A node type whose executions cannot be told apart. -/
def NodeDefinition.Repeats (definition : NodeDefinition) : Prop :=
  ∀ (agentId runId : String) (nodes : String → Prop) (context : NodeContext) (node : NodeConfig)
    (e e' : Envelope Value), Envelope.Alike agentId runId e e' →
    (definition.info.typeId = Aggregate.definition.info.typeId → nodes node.id) →
    (definition.execute context node e).Alike (Workspace.Alike agentId runId nodes)
      (NodeOutput.AlikeIfAny agentId runId) (definition.execute context node e')

/-! ## The standard nodes -/

section Nodes

variable {agentId runId : String} {nodes : String → Prop} {node : NodeConfig} {e e' : Envelope Value}

/-- Whatever is drawn from the supply, the answers say the same. -/
inductive IssuesAlike (agentId runId : String) :
    Except NodeError (Issuing NodeOutput) → Except NodeError (Issuing NodeOutput) → Prop
  | ok {work work' : Issuing NodeOutput}
    (h : ∀ supply supply', (work supply).1.Alike agentId runId (work' supply').1) :
    IssuesAlike agentId runId (.ok work) (.ok work')
  | error (e : NodeError) : IssuesAlike agentId runId (.error e) (.error e)

/-- A sequence of checks that look at the same. -/
theorem IssuesAlike.bind {α : Type} {check : Except NodeError α}
    {next next' : α → Except NodeError (Issuing NodeOutput)}
    (h : ∀ a, IssuesAlike agentId runId (next a) (next' a)) :
    IssuesAlike agentId runId (check >>= next) (check >>= next') := by
  cases check with
  | error error => exact .error error
  | ok a => exact h a

/-- Node types that answer at once. -/
theorem repeats_simple {info : NodeTypeMeta}
    {run : NodeConfig → Envelope Value → Except NodeError (Issuing NodeOutput)}
    (h : ∀ (agentId runId : String) (node : NodeConfig) (e e' : Envelope Value),
      Envelope.Alike agentId runId e e' → IssuesAlike agentId runId (run node e) (run node e')) :
    (NodeDefinition.simple info run).Repeats := by
  intro agentId runId nodes _ node e e' he _
  have hrun := h agentId runId node e e' he
  simp only [NodeDefinition.simple]
  generalize run node e = made, run node e' = made' at hrun
  cases hrun with
  | error error => exact Activity.alike_pure (.error error)
  | ok h => exact (Activity.alike_issue (fun _ _ _ _ hs => hs) h).bind fun _ _ ha =>
      Activity.alike_pure (.ok ha)

/-- Answers of one envelope. -/
theorem alike_emit {work work' : Issuing (Envelope Value)}
    (h : ∀ supply supply', Envelope.Alike agentId runId (work supply).1 (work' supply').1) :
    (Activity.emit work).Alike (Workspace.Alike agentId runId nodes)
      (NodeOutput.AlikeIfAny agentId runId) (Activity.emit work') :=
  (Activity.alike_issue (fun _ _ _ _ hs => hs) h).bind fun _ _ he =>
    Activity.alike_pure (.ok (.single he))

theorem repeats_log : DebugLog.definition.Repeats := by
  refine repeats_simple fun agentId runId node e e' he => .ok fun _ _ => .single ?_
  rw [← he.data]
  exact he.forward node.id e.data

theorem repeats_split : Split.definition.Repeats := by
  refine repeats_simple fun agentId runId node e e' he => ?_
  rw [Split.run, Split.run, ← he.data]
  refine .bind fun items => ?_
  split
  · split
    · exact .ok fun _ _ => .single ((he.forward node.id _).withMeta _ _)
    · exact .error _
  · refine .ok fun supply supply' => .many (Issuing.forall₂_each ?_ supply supply')
    rintro ⟨item, index⟩ - _ _
    simp only [Split.child, ← he.trace]
    have hderive := he.derive item ((e.trace.next node.id).child node.id index) rfl rfl
    exact (hderive.withMeta _ _).withMeta _ _

theorem Message.Alike.window (h : Envelope.Alike agentId runId e e') (size total : Nat)
    (items : List Value) (index : Nat) (trace : Trace) (hagent : trace.agentId = e.trace.agentId)
    (hrun : trace.runId = e.trace.runId) (supply supply' : Supply) :
    Envelope.Alike agentId runId (Batch.window size total items e index trace supply).1
      (Batch.window size total items e' index trace supply').1 :=
  (((h.derive _ trace hagent hrun).withMeta _ _).withMeta _ _).withMeta _ _

theorem repeats_batch : Batch.definition.Repeats := by
  refine repeats_simple fun agentId runId node e e' he => ?_
  rw [Batch.run, Batch.run, ← he.data, ← he.trace]
  refine .bind fun size => .bind fun items => ?_
  -- Whether all windows are asked for, whether there are any items, and whether there is such a window.
  split
  · split
    · exact .error _
    · refine .ok fun supply supply' => .many (Issuing.forall₂_each (fun index _ => ?_) supply supply')
      exact he.window size _ items index ((e.trace.next node.id).child node.id index) rfl rfl
  · split
    · exact .error _
    · refine .bind fun configured => ?_
      dsimp only
      split
      · exact .ok fun supply supply' =>
          .single (he.window size _ items _ (e.trace.next node.id) rfl rfl supply supply')
      · exact .error _

/-- Typed nodes that forward an answer. -/
theorem repeats_typed {ι ο : Type} [Payload ι] [Payload ο] {typed : TypedNode ι ο}
    {answer : NodeConfig → ι → Except NodeError ο} (hforwards : typed.Forwards answer) :
    typed.definition.Repeats := by
  intro agentId runId _ context node e e' he _ s s' hs
  rcases hforwards.execute_cases context node e s with
    ⟨error, supply, hanswer, hexec⟩ | ⟨data, supply, out, hanswer, hexec, hout⟩ <;>
  rcases hforwards.execute_cases context node e' s' with
    ⟨error', supply', hanswer', hexec'⟩ | ⟨data', supply', out', hanswer', hexec', hout'⟩ <;>
  rw [hexec, hexec'] <;> rw [← he.data, hanswer] at hanswer' <;> cases hanswer'
  · exact .finished hs (.error error)
  · refine .finished hs (.ok (.single ?_))
    rw [Envelope.Alike, hout, hout']
    exact he.forward node.id _

theorem repeats_http : HttpNode.definition.Repeats := by
  intro agentId runId _ context node e e' he _
  simp only [HttpNode.definition, HttpNode.execute, ← he.data]
  split
  · exact Activity.alike_pure (.error _)
  · refine (Activity.alike_ask _).bind fun reply reply' heq => ?_
    subst heq
    cases reply with
    | error error => exact Activity.alike_pure (.error _)
    | ok response => exact alike_emit fun _ _ => he.forward node.id _

theorem repeats_call : CallNode.definition.Repeats := by
  intro agentId runId _ context node e e' he _
  have hrequest : CallNode.request context node e'.toMessage =
      CallNode.request context node e.toMessage := by
    rw [CallNode.request, CallNode.request, he.data]
  simp only [CallNode.definition, CallNode.execute, hrequest]
  split
  · exact Activity.alike_pure (.error _)
  · refine (Activity.alike_ask _).bind fun reply reply' heq => ?_
    subst heq
    cases reply with
    | error error => exact Activity.alike_pure (.error _)
    | ok response =>
      refine alike_emit fun _ _ => ?_
      rw [CallNode.conclude, CallNode.conclude]
      cases response.status with
      | sent => exact (he.forward node.id _).withMeta _ _
      | completed => exact ((he.forward node.id _).withMeta _ _).withMeta _ _

theorem repeats_return : ReturnNode.definition.Repeats := by
  intro agentId runId _ context node e e' he _
  have hcall : ReturnNode.callId node e'.toMessage = ReturnNode.callId node e.toMessage := by
    rw [ReturnNode.callId, ReturnNode.callId, he.metadata]
  simp only [ReturnNode.definition, ReturnNode.execute, hcall]
  rw [← he.data]
  split
  · exact Activity.alike_pure (.error _)
  · refine (Activity.alike_ask _).bind fun reply reply' heq => ?_
    subst heq
    cases reply with
    | error error => exact Activity.alike_pure (.error _)
    | ok delivery =>
      refine alike_emit fun _ _ => ?_
      rw [ReturnNode.conclude, ReturnNode.conclude, ← he.data]
      exact (he.forward node.id _).withMeta _ _

theorem repeats_aggregate : Aggregate.definition.Repeats := by
  intro agentId runId nodes _ node e e' he hnode
  refine Activity.alike_use fun s s' hs => ?_
  let c : Aggregate.Call := ⟨node, e, s.supply, s.variableStore⟩
  let c' : Aggregate.Call := ⟨node, e', s'.supply, s'.variableStore⟩
  suffices h : (c.execute s.groups).2.Alike agentId runId nodes (c'.execute s'.groups).2 ∧
      NodeOutput.AlikeIfAny agentId runId (c.execute s.groups).1 (c'.execute s'.groups).1 from h
  have hkey : c.key = ⟨agentId, runId, node.id⟩ := by
    rw [Aggregate.Call.key, Aggregate.key, he.agentId, he.runId]
  have hkey' : c'.key = c.key := by
    rw [Aggregate.Call.key, Aggregate.Call.key, he.trace]
  have hadd : (s.groups.add c.key c.copy).Alike agentId runId nodes (s'.groups.add c.key c'.copy) :=
    Groups.Alike.add hs (hnode rfl) hkey he
  cases hc : c.settings with
  | error error =>
    rw [Aggregate.Call.execute_of_error hc, Aggregate.Call.execute_of_error (c := c') hc]
    exact ⟨hs, .error error⟩
  | ok settings =>
    obtain ⟨first, rest, hitems⟩ := Aggregate.Call.exists_first (s.groups.items c.key) c.copy
    obtain ⟨first', rest', hitems'⟩ := Aggregate.Call.exists_first (s'.groups.items c'.key) c'.copy
    have hall : List.Forall₂ (Envelope.Alike agentId runId) (first :: rest) (first' :: rest') := by
      rw [← hitems, ← hitems', hkey', hkey]
      exact List.rel_append (hs node.id (hnode rfl)) (.cons he .nil)
    obtain ⟨hfirst, hrest⟩ := List.forall₂_cons.mp hall
    have hexpected : Aggregate.expected settings.1 (some first'.toMessage) =
        Aggregate.expected settings.1 (some first.toMessage) := by
      rw [Aggregate.expected, Aggregate.expected, Option.bind_some, Option.bind_some,
        hfirst.metadata]
    rw [Aggregate.Call.execute_of_ok hc hitems, Aggregate.Call.execute_of_ok (c := c') hc hitems',
      hkey', hexpected, hrest.length_eq]
    split
    · exact ⟨hadd, .ok .pending⟩
    · have hmessages : List.Forall₂ (Message.Alike agentId runId) (rest.map Envelope.toMessage)
          (rest'.map Envelope.toMessage) :=
        List.forall₂_map_left_iff.mpr (List.forall₂_map_right_iff.mpr hrest)
      exact ⟨hadd.close, .ok (.single (hfirst.merge hmessages node.id))⟩

/-- **The executions of the standard nodes cannot be told apart.** -/
theorem repeats_standard : ∀ registration ∈ standardNodes, registration.definition.Repeats := by
  simp only [standardNodes, List.forall_mem_cons, List.not_mem_nil, false_implies, implies_true]
  exact ⟨repeats_split, repeats_aggregate, repeats_batch, repeats_call, repeats_return, repeats_http,
    repeats_log, repeats_typed JsonParse.forwards_typed, repeats_typed JsonStringify.forwards_typed,
    trivial⟩

end Nodes

/-! ## Executions -/

/-- Two outcomes that say the same. -/
inductive Outcome.Alike (agentId runId : String) : Outcome → Outcome → Prop
  | single {e e' : Envelope Value} (h : Envelope.Alike agentId runId e e') :
    Alike agentId runId (.ok (.single e)) (.ok (.single e'))
  | many {es es' : List (Envelope Value)} (h : List.Forall₂ (Envelope.Alike agentId runId) es es') :
    Alike agentId runId (.ok (.many es)) (.ok (.many es'))
  | pending : Alike agentId runId (.ok .pending) (.ok .pending)
  | error {failure failure' : NodeFailure} (h : failure.content = failure'.content) :
    Alike agentId runId (.error failure) (.error failure')

section Executions

variable {agentId runId : String} {nodes : String → Prop} {node : NodeConfig}
  {e e' : Envelope Value}

/-- Failures say the same if the inputs do. -/
theorem alike_failure (he : Envelope.Alike agentId runId e e') (error : NodeError)
    (supply supply' : Supply) : (NodeFailure.of node e error supply).1.content =
      (NodeFailure.of node e' error supply').1.content := by
  rw [NodeFailure.content_of, NodeFailure.content_of, Envelope.content, Envelope.content, he.undated]

theorem Outcome.alike_ok {output output' : NodeOutput} (h : output.Alike agentId runId output') :
    Outcome.Alike agentId runId (.ok output) (.ok output') := by
  cases h with
  | single h => exact .single h
  | many h => exact .many h
  | pending => exact .pending

/-- **Executions of the standard nodes cannot be told apart** by what they do in workspaces that hold
the same, if they are given envelopes that say the same. -/
theorem Registry.alike_execute (context : NodeContext) (he : Envelope.Alike agentId runId e e')
    (hnode : node.nodeType = Aggregate.definition.info.typeId → nodes node.id) :
    (Registry.standard.execute context node e).Alike (Workspace.Alike agentId runId nodes)
      (Outcome.Alike agentId runId) (Registry.standard.execute context node e') := by
  have hdispatch : (Registry.standard.dispatch context node e).Alike
      (Workspace.Alike agentId runId nodes) (NodeOutput.AlikeIfAny agentId runId)
      (Registry.standard.dispatch context node e') := by
    rw [dispatch, dispatch]
    split
    · exact Activity.alike_pure (.error _)
    · split
      · exact Activity.alike_pure (.error _)
      · rename_i definition hdefinition
        obtain ⟨registration, hmem, rfl, htype⟩ := mem_standardNodes_of_definition hdefinition
        exact repeats_standard registration hmem agentId runId nodes context node e e' he
          fun h => hnode (htype.symm.trans h)
  refine hdispatch.bind fun answer answer' hanswer => ?_
  cases hanswer with
  | ok h => exact Activity.alike_pure (Outcome.alike_ok h)
  | error error =>
    refine (Activity.alike_issue (fun _ _ _ _ hs => hs) (alike_failure he error)).bind
      fun failure failure' h => Activity.alike_pure (.error h)

end Executions

end FlowEngine
