import FlowEngine.Platform.Offline
import FlowEngine.Proofs.Aggregation.Blocks
import FlowEngine.Proofs.Run.Passing
import FlowEngine.Proofs.Run.Shared

/-!
# What travels along

A run starts with one envelope, and everything that comes of it says about itself where it comes from:
the workflow and the run, the version, the attachments and the variables are those of the input, and so
are the entries of the metadata that no node writes. Errors that the input had are still there, once
for every envelope that was merged on the way, and a failure adds its own.

The nodes that merge envelopes are the reason why this has to be said of the whole run at once. What
they emit depends on what they have kept, and that comes from executions long over; so the contract of
`Carried` holds of the envelopes in line, of those that are passing a node, and of those that wait in
a group, at any time and in whatever order the executions go on.

## Main definitions

* `MetaKey.written`: the entries of the metadata that nodes write.
* `Carried`: what a message of a run has in common with its input.
* `Onward`: what a node makes of its input.
* `NodeDefinition.Carries`: a node type that keeps this, and answers only the run's own call.
* `Message.Built`: messages that are made anew and added to.

## Main results

* `Carried.derive`, `Carried.withMeta`, `Carried.merge`: the operations on messages.
* `carries_standard`: the standard nodes keep it.
* `SharedRun.result_carried`: and so does a run of them, under any schedule and with any replies.
-/

namespace FlowEngine

/-- The entries of the metadata that nodes write. -/
def MetaKey.written : List String :=
  [splitIndex, splitTotal, batchIndex, totalBatches, batchSize, aggregateCount, outboundCallId,
    returnStatus, returnDelivery]

/-- What a message of a run has in common with the input of the run, apart from the errors that were
added. -/
structure Carried {α : Type} [HasDataType α] (origin : Message Value) (m : Message α)
    (added : List ExecutionError) : Prop where
  agentId : m.trace.agentId = origin.trace.agentId
  runId : m.trace.runId = origin.trace.runId
  version : m.version = origin.version
  dataType : m.dataType = dataTypeOf m.data
  binary : m.binary = origin.binary
  vars : m.vars = origin.vars
  metadata : ∀ key, key ∉ MetaKey.written → m.metadata.get? key = origin.metadata.get? key
  errors : ∃ copies, 0 < copies ∧
    m.errors = (List.replicate copies origin.errors).flatten ++ added

section Carried

variable {α β : Type} [HasDataType α] [HasDataType β] {origin : Message Value} {m : Message α}
  {added : List ExecutionError}

/-- The input itself. -/
theorem carried_self (h : origin.dataType = origin.data.dataType) : Carried origin origin [] where
  agentId := rfl
  runId := rfl
  version := rfl
  dataType := h
  binary := rfl
  vars := rfl
  metadata _ _ := rfl
  errors := ⟨1, Nat.one_pos, by simp⟩

/-- The next message, with whatever payload. -/
theorem Carried.derive (h : Carried origin m added) (data : β) {trace : Trace}
    (hagent : trace.agentId = m.trace.agentId) (hrun : trace.runId = m.trace.runId) :
    Carried origin (m.derive data trace) added :=
  { h with
    agentId := hagent.trans h.agentId
    runId := hrun.trans h.runId
    dataType := rfl }

theorem Carried.forward (h : Carried origin m added) (nodeId : String) (data : β) :
    Carried origin (m.forward nodeId data) added :=
  h.derive data rfl rfl

/-- An entry of the metadata that nodes write. -/
theorem Carried.withMeta (h : Carried origin m added) {key : String} (hkey : key ∈ MetaKey.written)
    (value : String) : Carried origin (m.withMeta key value) added :=
  { h with
    metadata := fun k hk => by
      have hne : k ≠ key := fun heq => hk (heq ▸ hkey)
      rw [Message.withMeta, Dict.get?_insert, if_neg hne]
      exact h.metadata k hk }

theorem Carried.withError (h : Carried origin m []) (e : ExecutionError) :
    Carried origin (m.withError e) [e] :=
  { h with
    errors := by
      obtain ⟨copies, hpos, herrors⟩ := h.errors
      exact ⟨copies, hpos, by rw [Message.withError, herrors, List.append_nil]⟩ }

end Carried

section Merge

variable {origin first : Message Value} {rest : List (Message Value)}

theorem Carried.absorb {m m' : Message Value} (h : Carried origin m []) (h' : Carried origin m' []) :
    Carried origin (Aggregate.absorb m m') [] :=
  { h with
    binary := by rw [Aggregate.absorb, h.binary, h'.binary, Dict.extend_self]
    vars := by rw [Aggregate.absorb, h.vars, h'.vars, Dict.extend_self]
    metadata := fun key hkey => by
      rw [Aggregate.absorb, Dict.get?_extend, h.metadata key hkey, h'.metadata key hkey,
        Option.or_self]
    errors := by
      obtain ⟨copies, hpos, herrors⟩ := h.errors
      obtain ⟨copies', -, herrors'⟩ := h'.errors
      refine ⟨copies + copies', Nat.add_pos_left hpos _, ?_⟩
      rw [Aggregate.absorb, herrors, herrors', List.replicate_add, List.flatten_append]
      simp }

/-- What a node makes of its input. -/
structure Onward (origin : Message Value) (nodeId : String) (m : Message Value) : Prop where
  carried : Carried origin m []
  node : m.trace.nodeId = nodeId
  attempt : m.trace.attempt = 1

theorem Carried.onward {α : Type} [HasDataType α] {m : Message α} (h : Carried origin m [])
    (nodeId : String) (data : Value) : Onward origin nodeId (m.forward nodeId data) :=
  ⟨h.forward nodeId data, rfl, rfl⟩

theorem Carried.onward_derive {α : Type} [HasDataType α] {m : Message α} (h : Carried origin m [])
    (data : Value) (trace : Trace) (hagent : trace.agentId = m.trace.agentId)
    (hrun : trace.runId = m.trace.runId) (hattempt : trace.attempt = 1) :
    Onward origin trace.nodeId (m.derive data trace) :=
  ⟨h.derive data hagent hrun, rfl, hattempt⟩

theorem Onward.withMeta {nodeId : String} {m : Message Value} (h : Onward origin nodeId m)
    {key : String} (hkey : key ∈ MetaKey.written) (value : String) :
    Onward origin nodeId (m.withMeta key value) :=
  ⟨h.carried.withMeta hkey value, h.node, h.attempt⟩

/-- Messages that are merged agree on all that they carry. -/
theorem Carried.merge (hfirst : Carried origin first []) (hrest : ∀ m ∈ rest, Carried origin m [])
    (nodeId : String) : Onward origin nodeId (Aggregate.mergedMessage nodeId first rest) := by
  have absorbAll (ms : List (Message Value)) (hms : ∀ m ∈ ms, Carried origin m [])
      {m : Message Value} (h : Onward origin nodeId m) :
      Onward origin nodeId (ms.foldl Aggregate.absorb m) := by
    induction ms generalizing m with
    | nil => exact h
    | cons m' ms ih =>
      exact ih (fun m hm => hms m (by simp [hm]))
        ⟨h.carried.absorb (hms m' (by simp)), h.node, h.attempt⟩
  obtain ⟨hcarried, hnode, hattempt⟩ := absorbAll rest hrest (hfirst.onward nodeId (.array []))
  have hlisted : Onward origin nodeId { rest.foldl Aggregate.absorb (first.forward nodeId (Value.array []))
      with data := .array ((first :: rest).map Message.data) } :=
    ⟨{ hcarried with dataType := (Aggregate.foldl_absorb rest _).1 }, hnode, hattempt⟩
  exact hlisted.withMeta (by simp [MetaKey.written]) _

end Merge

/-! ## Node types -/

/-- The groups of the run hold envelopes of the run. -/
def GroupsHeld (origin : Message Value) (g : Groups) : Prop :=
  ∀ nodeId, ∀ e ∈ g.items ⟨origin.trace.agentId, origin.trace.runId, nodeId⟩,
    Carried origin e.toMessage []

theorem GroupsHeld.add {origin : Message Value} {g : Groups} (h : GroupsHeld origin g)
    (key : GroupKey) {e : Envelope Value} (he : Carried origin e.toMessage []) :
    GroupsHeld origin (g.add key e) := by
  intro nodeId e' he'
  rw [Groups.items_add] at he'
  split at he'
  · rename_i hkey
    rcases List.mem_append.mp he' with he' | he'
    · exact h nodeId e' (hkey ▸ he')
    · rwa [List.mem_singleton.mp he']
  · exact h nodeId e' he'

theorem GroupsHeld.close {origin : Message Value} {g : Groups} (h : GroupsHeld origin g)
    (key : GroupKey) : GroupsHeld origin (g.close key) := by
  intro nodeId e he
  rw [Groups.items_close] at he
  split at he
  · cases he
  · exact h nodeId e he

/-- What a node may ask for: it answers the call that it is configured with, or else the one that the
input names. -/
def MayAsk (origin : Message Value) (node : NodeConfig) : Request → Prop
  | .answer id _ _ => node.nodeType = "workflow.return" ∧
    (node.nonemptyText? "call_id").or (origin.metadata.get? callIdKey) = some id
  | _ => True

/-- What a node may answer. -/
def GoesOnward (origin : Message Value) (nodeId : String) (answer : Except NodeError NodeOutput) :
    Prop :=
  ∀ output, answer = .ok output → ∀ e ∈ output.envelopes, Onward origin nodeId e.toMessage

/-- A node type that passes on what its input carries. -/
def NodeDefinition.Carries (definition : NodeDefinition) : Prop :=
  ∀ (origin : Message Value) (context : NodeContext) (node : NodeConfig) (e : Envelope Value),
    definition.info.typeId = node.nodeType → Carried origin e.toMessage [] →
    (definition.execute context node e).Keeps (fun state => GroupsHeld origin state.groups)
      (MayAsk origin node) (GoesOnward origin node.id)

section Nodes

variable {origin : Message Value} {node : NodeConfig} {e : Envelope Value} {nodeId : String}

theorem goesOnward_error (error : NodeError) : GoesOnward origin nodeId (.error error) := nofun

theorem goesOnward_single {e : Envelope Value} (h : Onward origin nodeId e.toMessage) :
    GoesOnward origin nodeId (.ok (.single e)) := by
  intro output houtput e' he'
  obtain rfl := Except.ok.inj houtput
  rwa [List.mem_singleton.mp he']

theorem goesOnward_many {es : List (Envelope Value)}
    (h : ∀ e ∈ es, Onward origin nodeId e.toMessage) : GoesOnward origin nodeId (.ok (.many es)) := by
  intro output houtput e he
  obtain rfl := Except.ok.inj houtput
  exact h e he

theorem goesOnward_pending : GoesOnward origin nodeId (.ok .pending) := by
  intro output houtput e he
  obtain rfl := Except.ok.inj houtput
  cases he

/-- Whatever is drawn from the supply, what the node issues goes onward. -/
def IssuesOnward (origin : Message Value) (nodeId : String) (work : Issuing NodeOutput) : Prop :=
  ∀ supply, GoesOnward origin nodeId (.ok (work supply).1)

/-- Node types that answer at once. -/
theorem carries_simple {info : NodeTypeMeta}
    {run : NodeConfig → Envelope Value → Except NodeError (Issuing NodeOutput)}
    (h : ∀ (origin : Message Value) (node : NodeConfig) (e : Envelope Value),
      Carried origin e.toMessage [] → Gives (run node e) (IssuesOnward origin node.id)) :
    (NodeDefinition.simple info run).Carries :=
  fun origin _ node e _ hcarried => Activity.keeps_attempt (fun _ _ hstate => hstate)
    (fun error _ => goesOnward_error error) (h origin node e hcarried)

/-- An answer of one envelope. -/
theorem keeps_emit {work : Issuing (Envelope Value)}
    (h : ∀ supply, Onward origin nodeId (work supply).1.toMessage) :
    (Activity.emit work).Keeps (fun state => GroupsHeld origin state.groups) (MayAsk origin node)
      (GoesOnward origin nodeId) :=
  (Activity.keeps_issue (fun _ _ hstate => hstate) h).bind fun _ he =>
    Activity.keeps_pure (goesOnward_single he)

theorem carries_log : DebugLog.definition.Carries :=
  carries_simple fun _ node e h => .of_ok fun _ => goesOnward_single (h.onward node.id e.data)

theorem carries_split : Split.definition.Carries := by
  refine carries_simple fun origin node e h => .skip fun items => ?_
  split
  · split
    · exact .of_ok fun _ => goesOnward_single ((h.onward node.id _).withMeta (by simp [MetaKey.written]) _)
    · exact .of_error _
  · refine .of_ok fun supply => goesOnward_many fun e' he' => ?_
    obtain ⟨⟨item, i⟩, -, earlier, rfl⟩ := Issuing.mem_each he'
    exact ((h.onward_derive item ((e.trace.next node.id).child node.id i) rfl rfl rfl).withMeta
      (by simp [MetaKey.written]) _).withMeta (by simp [MetaKey.written]) _

theorem Carried.onward_window (h : Carried origin e.toMessage []) (size total : Nat)
    (items : List Value) (index : Nat) (trace : Trace) (hagent : trace.agentId = e.trace.agentId)
    (hrun : trace.runId = e.trace.runId) (hattempt : trace.attempt = 1) (supply : Supply) :
    Onward origin trace.nodeId (Batch.window size total items e index trace supply).1.toMessage :=
  (((h.onward_derive _ trace hagent hrun hattempt).withMeta (by simp [MetaKey.written]) _).withMeta
    (by simp [MetaKey.written]) _).withMeta (by simp [MetaKey.written]) _

theorem carries_batch : Batch.definition.Carries := by
  refine carries_simple fun origin node e h => .skip fun size => .skip fun items => ?_
  -- Whether all windows are asked for, whether there are any items, and whether there is such a window.
  split
  · split
    · exact .of_error _
    · refine .of_ok fun supply => goesOnward_many fun e' he' => ?_
      obtain ⟨index, -, earlier, rfl⟩ := Issuing.mem_each he'
      exact h.onward_window size _ items index ((e.trace.next node.id).child node.id index) rfl rfl rfl _
  · split
    · exact .of_error _
    · refine .skip fun configured => ?_
      dsimp only
      split
      · exact .of_ok fun supply => goesOnward_single
          (h.onward_window size _ items _ (e.trace.next node.id) rfl rfl rfl supply)
      · exact .of_error _

/-- Typed nodes that forward an answer. -/
theorem carries_typed {ι ο : Type} [Payload ι] [Payload ο] {typed : TypedNode ι ο}
    {answer : NodeConfig → ι → Except NodeError ο} (hforwards : typed.Forwards answer) :
    typed.definition.Carries := by
  intro origin context node e _ h state hstate
  rcases hforwards.execute_cases context node e state with
    ⟨error, supply, -, hexec⟩ | ⟨data, supply, e', -, hexec, he'⟩
  · rw [hexec]
    exact ⟨hstate, goesOnward_error error⟩
  · rw [hexec]
    exact ⟨hstate, goesOnward_single (he' ▸ h.onward node.id _)⟩

theorem carries_aggregate : Aggregate.definition.Carries := by
  intro origin context node e _ h
  refine Activity.keeps_use fun state hstate => ?_
  let c : Aggregate.Call := ⟨node, e, state.supply, state.variableStore⟩
  suffices h : GroupsHeld origin (c.execute state.groups).2 ∧
      GoesOnward origin node.id (c.execute state.groups).1 from h
  have hkey : c.key = ⟨origin.trace.agentId, origin.trace.runId, node.id⟩ := by
    rw [Aggregate.Call.key, Aggregate.key, h.agentId, h.runId]
  have hadd : GroupsHeld origin (state.groups.add c.key c.copy) := hstate.add c.key h
  cases hs : c.settings with
  | error error =>
    rw [Aggregate.Call.execute_of_error hs]
    exact ⟨hstate, goesOnward_error error⟩
  | ok settings =>
    obtain ⟨first, rest, hitems⟩ := Aggregate.Call.exists_first (state.groups.items c.key) c.copy
    have hall : ∀ e ∈ first :: rest, Carried origin e.toMessage [] := by
      intro e' he'
      rw [← hitems, List.mem_append, List.mem_singleton] at he'
      rcases he' with he' | rfl
      · exact hstate node.id e' (hkey ▸ he')
      · exact h
    rw [List.forall_mem_cons] at hall
    rw [Aggregate.Call.execute_of_ok hs hitems]
    split
    · exact ⟨hadd, goesOnward_pending⟩
    · exact ⟨hadd.close c.key, goesOnward_single
        (Carried.merge hall.1 (List.forall_mem_map.mpr hall.2) node.id)⟩

theorem carries_http : HttpNode.definition.Carries := by
  intro origin context node e _ h
  simp only [HttpNode.definition, HttpNode.execute]
  split
  · exact Activity.keeps_pure (goesOnward_error _)
  · refine (Activity.keeps_ask trivial).bind fun reply _ => ?_
    cases reply with
    | error error => exact Activity.keeps_pure (goesOnward_error _)
    | ok response => exact keeps_emit fun _ => h.onward node.id _

theorem carries_call : CallNode.definition.Carries := by
  intro origin context node e _ h
  simp only [CallNode.definition, CallNode.execute]
  split
  · exact Activity.keeps_pure (goesOnward_error _)
  · refine (Activity.keeps_ask trivial).bind fun reply _ => ?_
    cases reply with
    | error error => exact Activity.keeps_pure (goesOnward_error _)
    | ok response =>
      refine keeps_emit fun supply => ?_
      rw [CallNode.conclude]
      have hcall : MetaKey.outboundCallId ∈ MetaKey.written := by simp [MetaKey.written]
      cases response.status with
      | sent => exact (h.onward node.id _).withMeta hcall _
      | completed =>
        exact ((h.onward node.id _).withMeta (by simp [MetaKey.written]) _).withMeta hcall _

theorem carries_return : ReturnNode.definition.Carries := by
  intro origin context node e htype h
  simp only [ReturnNode.definition, ReturnNode.execute]
  split
  · exact Activity.keeps_pure (goesOnward_error _)
  · rename_i id hid
    have hcall : (node.nonemptyText? "call_id").or (origin.metadata.get? callIdKey) = some id := by
      rw [← h.metadata callIdKey (by decide)]
      simp only [ReturnNode.callId] at hid
      split at hid
      · rename_i found hfound
        rw [hfound, Except.ok.inj hid]
      · cases hid
    refine (Activity.keeps_ask ⟨htype.symm, hcall⟩).bind fun reply _ => ?_
    cases reply with
    | error error => exact Activity.keeps_pure (goesOnward_error _)
    | ok delivery =>
      exact keeps_emit fun _ => (h.onward node.id _).withMeta (by simp [MetaKey.written]) _

/-- **The standard nodes pass on what their inputs carry.** -/
theorem carries_standard : ∀ registration ∈ standardNodes, registration.definition.Carries := by
  simp only [standardNodes, List.forall_mem_cons, List.not_mem_nil, false_implies, implies_true]
  exact ⟨carries_split, carries_aggregate, carries_batch, carries_call, carries_return, carries_http,
    carries_log, carries_typed JsonParse.forwards_typed, carries_typed JsonStringify.forwards_typed, trivial⟩

theorem Registry.mem_of_definition {registry : Registry} {nodeType : String}
    {definition : NodeDefinition} (h : registry.definition nodeType = .ok definition) :
    ∃ entry ∈ registry.entries, entry.typeId = nodeType ∧ entry.registration.definition = definition := by
  rw [Registry.definition, require, find?] at h
  split at h
  · rename_i entry hfound
    have htype := List.find?_some hfound
    exact ⟨entry, List.mem_of_find?_eq_some hfound, beq_iff_eq.mp htype, Except.ok.inj h⟩
  · cases h

/-- The standard registry has the standard nodes, each under its own name. -/
theorem mem_standardNodes_of_definition {nodeType : String} {definition : NodeDefinition}
    (h : Registry.standard.definition nodeType = .ok definition) :
    ∃ registration ∈ standardNodes, registration.definition = definition ∧
      definition.info.typeId = nodeType := by
  obtain ⟨entry, hentry, htype, rfl⟩ := Registry.mem_of_definition h
  obtain ⟨registration, hregistration, rfl⟩ := List.mem_map.mp hentry
  exact ⟨registration, hregistration, rfl, htype⟩

end Nodes

/-! ## Runs -/

/-- The record of a node's failure. -/
def Recorded (origin : Message Value) (node : NodeConfig) (failure : NodeFailure) : Prop :=
  failure.envelope.trace.nodeId = node.id ∧
    ∃ time, Carried origin failure.envelope.toMessage [.ofNodeError time node.id failure.error]

/-- What a run of standard nodes keeps. -/
def carriedContract (origin : Message Value) (pipeline : List NodeConfig) :
    RunContract pipeline.length where
  shared state := GroupsHeld origin state.groups
  arrives k e := Carried origin e.toMessage [] ∧
    ∀ j node, k = j + 1 → pipeline[j]? = some node → e.trace.nodeId = node.id ∧ e.trace.attempt = 1
  asks stage request := MayAsk origin (pipeline.get stage) request
  fails stage failure := Recorded origin (pipeline.get stage) failure

section Run

variable {origin : Message Value} {pipeline : List NodeConfig} {context : NodeContext}

theorem Outcome.eq_error_of_failure? {o : Outcome} {failure : NodeFailure}
    (h : o.failure? = some failure) : o = .error failure := by
  rcases o with failure' | emission
  · exact congrArg Except.error (Option.some.inj h)
  · cases h

theorem ends_of_goesOnward {stage : Fin pipeline.length} {output : NodeOutput}
    (h : GoesOnward origin (pipeline.get stage).id (.ok output)) :
    (carriedContract origin pipeline).Ends stage (.ok output) := by
  refine ⟨fun e he => ?_, fun failure hfailure => by cases hfailure⟩
  obtain ⟨hcarried, hnode, hattempt⟩ := h output rfl e (Outcome.emitted_ok output ▸ he)
  refine ⟨hcarried, fun j node hj hget => ?_⟩
  obtain rfl : stage.val = j := Nat.succ.inj hj
  obtain rfl : pipeline.get stage = node := by simpa using hget
  exact ⟨hnode, hattempt⟩

theorem ends_failure {stage : Fin pipeline.length} {e : Envelope Value} (h : Carried origin e.toMessage [])
    (error : NodeError) (supply : Supply) : (carriedContract origin pipeline).Ends stage
      (.error (NodeFailure.of (pipeline.get stage) e error supply).1) := by
  refine ⟨fun e' he' => absurd he' List.not_mem_nil, fun failure hfailure => ?_⟩
  obtain rfl := Except.error.inj hfailure
  exact ⟨rfl, _, (h.forward (pipeline.get stage).id e.data).withError _⟩

/-- The standard nodes keep it. -/
theorem carriedContract_keptBy (origin : Message Value) (context : NodeContext)
    (pipeline : List NodeConfig) :
    (carriedContract origin pipeline).KeptBy (Registry.standard.begin context pipeline) := by
  rintro stage cancelled e ⟨hcarried, -⟩
  refine Registry.keeps_execute (P := GoesOnward origin (pipeline.get stage).id) (fun _ _ h => h) ?_
    (fun output houtput => ends_of_goesOnward houtput) fun error supply _ => ends_failure hcarried error supply
  rw [Registry.dispatch]
  split
  · exact Activity.keeps_pure (goesOnward_error _)
  · split
    · exact Activity.keeps_pure (goesOnward_error _)
    · rename_i definition hdefinition
      obtain ⟨registration, hmem, rfl, htype⟩ := mem_standardNodes_of_definition hdefinition
      exact carries_standard registration hmem origin _ (pipeline.get stage) e htype hcarried

/-- What others do to the workspace leaves the groups of the run alone. -/
def Workspace.Spares (agentId runId : String) (before after : Workspace) : Prop :=
  ∀ nodeId, after.groups.items ⟨agentId, runId, nodeId⟩ =
    before.groups.items ⟨agentId, runId, nodeId⟩

/-- A run of standard nodes whose groups nobody else touches. -/
abbrev StandardRun (context : NodeContext) (pipeline : List NodeConfig) (limit : Nat)
    (workspace : Workspace) (input : Envelope Value) : SharedRun pipeline.length → Prop :=
  SharedRun.Reaches (Registry.standard.begin context pipeline) limit
    (Workspace.Spares input.trace.agentId input.trace.runId) (.begin limit workspace input)

theorem StandardRun.kept {limit : Nat} {workspace : Workspace} {input : Envelope Value}
    {s : SharedRun pipeline.length} (h : StandardRun context pipeline limit workspace input s)
    (hidle : workspace.groups.Idle input.trace.agentId input.trace.runId)
    (hinput : input.dataType = input.data.dataType) :
    SharedRun.Kept (carriedContract input.toMessage pipeline) s := by
  refine SharedRun.Reaches.kept h (carriedContract_keptBy _ context pipeline) ?_
    (SharedRun.kept_begin ?_ ⟨carried_self hinput, nofun⟩)
  · intro state state' hstate hspares nodeId e he
    exact hstate nodeId e (hspares nodeId ▸ he)
  · intro nodeId e he
    rw [hidle nodeId] at he
    cases he

/-- What the contract says of the outcome of a run. -/
theorem SharedRun.Kept.result {s : SharedRun pipeline.length}
    (h : SharedRun.Kept (carriedContract origin pipeline) s) :
    (∀ e ∈ s.run.result.outputs, Carried origin e.toMessage [] ∧
        ∀ last ∈ pipeline.getLast?, e.trace.nodeId = last.id ∧ e.trace.attempt = 1) ∧
      ∀ failure ∈ s.run.result.failures, ∃ c ∈ s.finished, c.outcome = .error failure ∧
        Recorded origin (pipeline.get c.stage) failure := by
  constructor
  · intro e he
    obtain ⟨hcarried, htrace⟩ := h.outputs e he
    refine ⟨hcarried, fun last hlast => htrace (pipeline.length - 1) last ?_ ?_⟩
    · have hpos := List.length_pos_of_mem (List.mem_of_getLast? hlast)
      omega
    · rwa [← List.getLast?_eq_getElem?]
  · intro failure hfailure
    rw [h.failures] at hfailure
    obtain ⟨c, hc, houtcome⟩ := List.mem_filterMap.mp hfailure
    have herror := Outcome.eq_error_of_failure? houtcome
    exact ⟨c, hc, herror, (h.finished c hc).2.fails failure herror⟩

/-- **What travels along.** At any time of a run of standard nodes, under any schedule and with any
replies, every output and every failure carries what the input has said; outputs have come from the
last node, and a failure records the error of the node that has failed. -/
theorem SharedRun.result_carried {limit : Nat} {workspace : Workspace} {input : Envelope Value}
    {s : SharedRun pipeline.length} (h : StandardRun context pipeline limit workspace input s)
    (hidle : workspace.groups.Idle input.trace.agentId input.trace.runId)
    (hinput : input.dataType = input.data.dataType) :
    (∀ e ∈ s.run.result.outputs, Carried input.toMessage e.toMessage [] ∧
        ∀ last ∈ pipeline.getLast?, e.trace.nodeId = last.id ∧ e.trace.attempt = 1) ∧
      ∀ failure ∈ s.run.result.failures, ∃ c ∈ s.finished, c.outcome = .error failure ∧
        failure.envelope.trace.nodeId = (pipeline.get c.stage).id ∧
        ∃ time, Carried input.toMessage failure.envelope.toMessage
          [{ time, nodeId := (pipeline.get c.stage).id, message := failure.error.message
             code := some failure.error.code }] :=
  (h.kept hidle hinput).result

end Run

/-- An envelope with an error that has been recorded before. -/
def faultyInput : Envelope Value :=
  { sampleEnvelope 0 (.array [.string "a", .string "b"]) with
    errors := [{ time := default, nodeId := "intake", message := "late" }] }

/-- Splits a sequence and merges its items again. -/
def mergingPipeline : List NodeConfig :=
  [{ id := "split", nodeType := "flow.split" }, { id := "merge", nodeType := "flow.aggregate" }]

/-- The error of the input has come by two ways. -/
theorem SharedRun.result_carried_merged :
    ∃ s e, StandardRun ⟨"orders", "run-1", false⟩ mergingPipeline 4 { supply := ⟨1, default⟩ }
        faultyInput s ∧ s.run.result.outputs = [e] ∧
      Carried faultyInput.toMessage e.toMessage [] ∧ e.trace.nodeId = "merge" ∧
      e.errors = faultyInput.errors ++ faultyInput.errors := by
  let engine : Engine := { settings := { maxParallel := 4 }, workspace := { supply := ⟨1, default⟩ } }
  obtain ⟨s, hreach, -, -, hresult, -⟩ := engine.exists_reaches ⟨"orders", "run-1", false⟩
    (Offline.reply default) mergingPipeline faultyInput
    (Workspace.Spares faultyInput.trace.agentId faultyInput.trace.runId) (.new {})
  have hsingle : s.run.result.outputs.map (·.errors) = [faultyInput.errors ++ faultyInput.errors] := by
    have hoffline : s.run.result = (engine.run ⟨"orders", "run-1", false⟩ (Offline.reply default)
        mergingPipeline faultyInput (.new {})).1 := hresult
    rw [hoffline, Engine.run_eq]
    decide +kernel
  obtain ⟨e, he, herrors⟩ := List.map_eq_singleton_iff.mp hsingle
  obtain ⟨houtputs, -⟩ := SharedRun.result_carried hreach (fun _ => rfl) rfl
  obtain ⟨hcarried, hlast⟩ := houtputs e (by simp [he])
  exact ⟨s, e, hreach, he, hcarried, (hlast _ rfl).1, herrors⟩

section Run

variable {pipeline : List NodeConfig} {context : NodeContext}

/-- The same of a run of an engine whose requests are answered at once. -/
theorem Engine.carried_run {σ : Type} {engine : Engine} {input : Envelope Value}
    (reply : (request : Request) → σ → request.Reply × σ) (hregistry : engine.registry = .standard)
    (hidle : engine.workspace.groups.Idle input.trace.agentId input.trace.runId)
    (hinput : input.dataType = input.data.dataType) (a : σ) :
    (∀ e ∈ (engine.run context reply pipeline input a).1.outputs,
        Carried input.toMessage e.toMessage [] ∧
        ∀ last ∈ pipeline.getLast?, e.trace.nodeId = last.id ∧ e.trace.attempt = 1) ∧
      ∀ failure ∈ (engine.run context reply pipeline input a).1.failures,
        ∃ node ∈ pipeline, Recorded input.toMessage node failure := by
  obtain ⟨s, hreach, -, -, hresult, -⟩ := engine.exists_reaches context reply pipeline input
    (Workspace.Spares input.trace.agentId input.trace.runId) a
  rw [hregistry] at hreach
  obtain ⟨houtputs, hfailures⟩ := (StandardRun.kept hreach hidle hinput).result
  rw [hresult] at houtputs hfailures
  refine ⟨houtputs, fun failure hfailure => ?_⟩
  obtain ⟨c, -, -, hrecorded⟩ := hfailures failure hfailure
  exact ⟨(pipeline.get c.stage), List.getElem_mem _, hrecorded⟩

end Run

/-! ### Inputs -/

/-- Messages that are made anew, and then added to. -/
inductive Message.Built : Message Value → Prop
  | new (data : Value) (trace : Trace) : Built (.new data trace)
  | withVersion {m : Message Value} (h : Built m) (version : UInt32) : Built (m.withVersion version)
  | withMeta {m : Message Value} (h : Built m) (key value : String) : Built (m.withMeta key value)
  | withBinary {m : Message Value} (h : Built m) (name : String) (bytes : List UInt8) :
    Built (m.withBinary name bytes)
  | withError {m : Message Value} (h : Built m) (error : ExecutionError) : Built (m.withError error)
  | setVariable {m m' : Message Value} (h : Built m) {store later : VariableStore} {scope : Scope}
    {key : String} {value : Value}
    (hset : m.setVariable store scope key value = .ok (m', later)) : Built m'

/-- Such messages name the type of their data. -/
theorem Message.Built.dataType_eq {m : Message Value} (h : Built m) :
    m.dataType = m.data.dataType := by
  induction h with
  | new data trace => rfl
  | setVariable h hset ih =>
    rename_i m m' store later scope key value
    cases scope with
    | run =>
      simp only [Message.setVariable] at hset
      split at hset
      · cases hset
      · obtain ⟨rfl, -⟩ := Prod.mk.inj (Except.ok.inj hset)
        exact ih
    | global | workflow =>
      -- The other scopes leave the message alone.
      all_goals
        simp only [Message.setVariable, Except.map] at hset
        split at hset
        · cases hset
        · obtain ⟨rfl, -⟩ := Prod.mk.inj (Except.ok.inj hset)
          exact ih
  | _ => assumption

end FlowEngine
