import FlowEngine.Cli.Session
import FlowEngine.Proofs.Aggregation.Blocks
import FlowEngine.Proofs.Run.Passing

/-!
# What was split is grouped again

A sequence is split, every item goes through a chain of nodes by itself, and an aggregating node at
the end groups what has come through. The items that a node of the chain fails on are missing from the
groups, and the others keep their order: a group is full when as many have come through as are
configured, or as the sequence was long.

Four things have to fit together for that. Splitting writes the length of the sequence into the
metadata of each item; the chain has to leave the metadata as they are, which is what `Engine.Passes`
asks of its nodes; a run works level by level, so nothing is overtaken; and the calls of the
aggregating node are cut into blocks, all of one size here.

## Main definitions

* `Aggregate.Alike`, `Aggregate.Grouped`: calls whose blocks have one size, and what comes of them.
* `SplitRun`, `Regrouped`: a run of this shape, and what comes of it.

## Main results

* `Aggregate.exists_blocks`: calls that are all alike are cut into blocks of one size.
* `Engine.exists_history`: the level of an aggregating node is a history of calls.
* `Engine.run_regroups`: what was split is grouped again.
* `Command.runOnce_splitPipeline`: what the command line makes of a sequence.
-/

namespace FlowEngine

/-! ## Blocks of one size -/

namespace Aggregate

/-- Calls with one key whose blocks all have the same size. -/
structure Alike (calls : List Call) (k : GroupKey) (size : Nat) : Prop where
  key : ∀ c ∈ calls, c.key = k
  settings : ∃ configured, ∀ c ∈ calls, c.settings = .ok (configured, false)
  blockSize : ∀ c ∈ calls, c.blockSize = size
  pos : 0 < size

theorem map_call_history (calls : List Call) : (history calls).entries.map Entry.call = calls := by
  induction calls using List.reverseRecOn with
  | nil => rfl
  | append_singleton calls c ih =>
    rw [history_append]
    simpa [History.call] using ih

theorem IsBlock.answer_cases {b : List Entry} (h : IsBlock b) {e : Entry} (he : e ∈ b) :
    e.answer = .ok .pending ∨ ∃ merged, e.answer = .ok (.single merged) := by
  obtain ⟨last, hlast, first, rest, merged, -, hanswer, -⟩ := h.merged
  rw [← List.dropLast_append_getLast? last hlast] at he
  rcases List.mem_append.mp he with he | he
  · exact .inl (h.pending e he)
  · rw [List.mem_singleton.mp he]
    exact .inr ⟨_, hanswer⟩

section Alike

variable {calls : List Call} {k : GroupKey} {size : Nat}

theorem Alike.uniform (h : Alike calls k size) : Uniform k calls := by
  obtain ⟨configured, hsettings⟩ := h.settings
  intro c hc d hd _ _ s t hs ht
  rw [hsettings c hc] at hs
  rw [hsettings d hd] at ht
  exact Except.ok.inj (hs.symm.trans ht)

theorem Alike.accepted (h : Alike calls k size) :
    (history calls).accepted k = (history calls).entries := by
  obtain ⟨configured, hsettings⟩ := h.settings
  refine accepted_eq_entries fun c hc => ⟨h.key c hc, ?_⟩
  rw [hsettings c hc]
  rfl

/-- **Calls that are all alike are cut into blocks of one size**, and fewer than that are left. -/
theorem exists_blocks (h : Alike calls k size) :
    ∃ (blocks : List (List Entry)) (rest : List Entry),
      (history calls).entries = blocks.flatten ++ rest ∧ (∀ b ∈ blocks, IsBlock b ∧ b.length = size) ∧
      (∀ e ∈ rest, e.answer = .ok .pending) ∧ rest.length < size ∧
      rest.length = ((history calls).groups.items k).length := by
  obtain ⟨blocks, rest, hd⟩ := exists_divided calls k
  have hentries := h.accepted.symm.trans hd.accepted
  have hsize {e : Entry} (he : e ∈ (history calls).entries) : e.call.blockSize = size :=
    h.blockSize _ (mem_history he).1
  refine ⟨blocks, rest, hentries, fun b hb => ⟨hd.block b hb, ?_⟩, hd.pending, ?_, ?_⟩
  · have hb' := hd.size h.uniform b hb
    cases b with
    | nil => cases hb'
    | cons e b =>
      have he : e ∈ (history calls).entries := by
        rw [hentries]
        exact List.mem_append_left _ (List.mem_flatten_of_mem hb List.mem_cons_self)
      rw [← hsize he]
      exact (Option.some.inj hb').symm
  · cases rest with
    | nil => exact h.pos
    | cons e rest =>
      rw [← hsize (e := e) (by simp [hentries])]
      exact hd.room h.uniform e rfl
  · simpa using (congrArg List.length hd.items).symm

/-- What comes of calls that are all alike: a message for each block, which holds what the block was
given, and an open group unless the last block is full. -/
structure Grouped (calls : List Call) (k : GroupKey) (size : Nat) (ms : List (Message Value)) :
    Prop where
  count : ms.length = calls.length / size
  block : ∀ m ∈ ms, (∃ items, m.data = .array items ∧ items.length = size) ∧
    m.metadata.get? MetaKey.aggregateCount = some (toString size)
  payloads : ms.flatMap payloads =
    (calls.map fun c => c.input.data).take (calls.length / size * size)
  remainder : ((history calls).groups.items k).length = calls.length % size

theorem Alike.answer_cases (h : Alike calls k size) {e : Entry} (he : e ∈ (history calls).entries) :
    e.answer = .ok .pending ∨ ∃ merged, e.answer = .ok (.single merged) := by
  obtain ⟨blocks, rest, hentries, hblocks, hrest, -⟩ := exists_blocks h
  rw [hentries] at he
  rcases List.mem_append.mp he with he | he
  · obtain ⟨b, hb, he⟩ := List.mem_flatten.mp he
    exact (hblocks b hb).1.answer_cases he
  · exact .inl (hrest e he)

theorem grouped_of_alike (h : Alike calls k size) :
    Grouped calls k size ((history calls).entries.filterMap Entry.emitted?) := by
  obtain ⟨blocks, rest, hentries, hblocks, hrest, hlt, hitems⟩ := exists_blocks h
  have hnone : rest.filterMap Entry.emitted? = [] := by
    refine List.filterMap_eq_nil_iff.mpr fun e he => ?_
    rw [Entry.emitted?, hrest e he]
  have hmessages : (history calls).entries.filterMap Entry.emitted? =
      (blocks.map (List.filterMap Entry.emitted?)).flatten := by
    rw [hentries, List.filterMap_append, hnone, List.append_nil, List.filterMap_flatten]
  -- A block is one message, of which there are as many as blocks fit into the calls.
  have hlength : blocks.flatten.length = blocks.length * size := by
    rw [List.length_flatten, List.sum_eq_card_nsmul _ size (by simpa using fun b hb => (hblocks b hb).2)]
    simp
  have hcalls : calls.length = blocks.length * size + rest.length := by
    rw [← hlength, ← List.length_append, ← hentries, ← List.length_map (f := Entry.call),
      map_call_history]
  have hdiv : calls.length / size = blocks.length := by
    rw [hcalls, Nat.mul_comm, Nat.mul_add_div h.pos, Nat.div_eq_of_lt hlt, Nat.add_zero]
  have hmod : calls.length % size = rest.length := by
    rw [hcalls, Nat.mul_comm, Nat.mul_add_mod, Nat.mod_eq_of_lt hlt]
  constructor
  case count =>
    rw [hmessages, hdiv, List.length_flatten, List.sum_eq_card_nsmul _ 1]
    · simp
    · intro n hn
      obtain ⟨ms, hms, rfl⟩ := List.mem_map.mp hn
      obtain ⟨b, hb, rfl⟩ := List.mem_map.mp hms
      obtain ⟨m, hm, -⟩ := (hblocks b hb).1.exists_emitted
      rw [hm, List.length_singleton]
  case block =>
    intro m hm
    rw [hmessages, List.mem_flatten] at hm
    obtain ⟨ms, hms, hm⟩ := hm
    obtain ⟨b, hb, rfl⟩ := List.mem_map.mp hms
    obtain ⟨m', hm', hdata, hcount⟩ := (hblocks b hb).1.exists_emitted
    rw [hm', List.mem_singleton] at hm
    subst hm
    exact ⟨⟨_, hdata, by rw [List.length_map, (hblocks b hb).2]⟩, by rw [hcount, (hblocks b hb).2]⟩
  case payloads =>
    have hall := emitted_append_items calls k
    rw [History.emitted_eq, h.accepted] at hall
    have hdata : (history calls).entries.map (fun e => e.message.data) =
        calls.map fun c => c.input.data := by
      have := congrArg (List.map fun c : Call => c.input.data) (map_call_history calls)
      rwa [List.map_map] at this
    rw [hdata] at hall
    rw [← hall, List.take_left']
    have hsum := congrArg List.length hall
    simp only [List.length_append, List.length_map, ← hitems] at hsum
    rw [hdiv]
    omega
  case remainder => rw [hmod, hitems]

end Alike

/-- Calls that do not fail, with their outcomes: what is emitted, and how many wait. -/
theorem emitted_of_answers {os : List Outcome} {entries : List Entry}
    (h : os.map Outcome.answer = entries.map Entry.answer)
    (hok : ∀ e ∈ entries, e.answer = .ok .pending ∨ ∃ m, e.answer = .ok (.single m)) :
    os.filterMap Outcome.failure? = [] ∧
      os.countP Outcome.isPending + (os.flatMap Outcome.emitted).length = os.length ∧
      (os.flatMap Outcome.emitted).map Envelope.toMessage = entries.filterMap Entry.emitted? := by
  induction os generalizing entries with
  | nil =>
    obtain rfl := List.map_eq_nil_iff.mp h.symm
    exact ⟨rfl, rfl, rfl⟩
  | cons o os ih =>
    obtain ⟨e, rest, rfl, ho, hrest⟩ := List.map_eq_cons_iff.mp h.symm
    obtain ⟨hfailures, hcount, hemitted⟩ := ih hrest.symm fun e he => hok e (by simp [he])
    rcases hok e (by simp) with he | ⟨m, he⟩
    all_goals
      rw [he] at ho
      rcases o with failure | (e' | es | _) <;> cases ho
    · refine ⟨?_, ?_, ?_⟩
      · simpa [List.filterMap_cons, Outcome.failure?] using hfailures
      · rw [List.countP_cons_of_pos rfl, List.flatMap_cons, Outcome.emitted, List.nil_append,
          List.length_cons]
        omega
      · simpa [List.filterMap_cons, Entry.emitted?, he, Outcome.emitted] using hemitted
    · refine ⟨?_, ?_, ?_⟩
      · simpa [List.filterMap_cons, Outcome.failure?] using hfailures
      · rw [List.countP_cons_of_neg Bool.false_ne_true, List.flatMap_cons, Outcome.emitted,
          List.singleton_append, List.length_cons, List.length_cons]
        omega
      · simpa [List.filterMap_cons, Entry.emitted?, he, Outcome.emitted] using hemitted

end Aggregate

section AggregateLevel

open Aggregate

variable {σ : Type} {engine : Engine} {context : NodeContext}
  {reply : (request : Request) → σ → request.Reply × σ} {agentId runId : String}
  {node : NodeConfig}

variable (reply) in
/-- The level of an aggregating node is a history of calls, as far as its run is concerned. -/
theorem Engine.exists_history
    (hp : engine.registry.Provides node.nodeType Aggregate.definition)
    (hc : context.cancelled = false) {es : List (Envelope Value)}
    (hes : ∀ e ∈ es, e.InRun agentId runId) (workspace : Workspace) (s : σ)
    (hidle : workspace.groups.Idle agentId runId) :
    ∃ calls : List Call, calls.map Call.input = es ∧ (∀ c ∈ calls, c.node = node) ∧
      (runLevel (engine.execute context reply node) es (workspace, s)).1.map Outcome.answer =
        (history calls).entries.map Entry.answer ∧
      ∀ nodeId,
        (runLevel (engine.execute context reply node) es
          (workspace, s)).2.1.groups.items ⟨agentId, runId, nodeId⟩ =
        (history calls).groups.items ⟨agentId, runId, nodeId⟩ := by
  induction es using List.reverseRecOn with
  | nil => exact ⟨[], rfl, by simp, rfl, hidle⟩
  | append_singleton es e ih =>
    obtain ⟨calls, hinputs, hnode, hanswers, hitems⟩ := ih fun e he => hes e (by simp [he])
    let state := (runLevel (engine.execute context reply node) es (workspace, s)).2
    let c : Call := ⟨node, e, state.1.supply, state.1.variableStore⟩
    have hkey : c.key = ⟨agentId, runId, node.id⟩ := by
      obtain ⟨rfl, rfl⟩ := hes e (by simp)
      rfl
    have hexec : definition.execute context node e state.1 =
        .finished (Aggregate.run node e state.1).2 (c.execute state.1.groups).1 := rfl
    have hgroups : (Aggregate.run node e state.1).2.groups = (c.execute state.1.groups).2 := rfl
    obtain ⟨hanswer, hgroup⟩ := Call.execute_congr (c := c) (hkey ▸ hitems node.id)
    obtain ⟨o, supply, hlast, ho⟩ := exists_execute_of_finished reply hp hc hexec state.2
    refine ⟨calls ++ [c], ?_, ?_, ?_, fun nodeId => ?_⟩
    · rw [List.map_append, hinputs, List.map_singleton]
    · intro c' hc'
      rcases List.mem_append.mp hc' with hc' | hc'
      · exact hnode c' hc'
      · rw [List.mem_singleton.mp hc']
    · rw [runLevel_append, history_append, List.map_append, hanswers]
      simp only [History.call, runLevel, List.map_append, List.map_singleton]
      rw [← hanswer, show (runLevel _ es (workspace, s)).2 = (state.1, state.2) from rfl, hlast, ho]
    · rw [runLevel_append, history_append]
      simp only [History.call, runLevel]
      rw [show (runLevel _ es (workspace, s)).2 = (state.1, state.2) from rfl, hlast, hgroups]
      by_cases hn : nodeId = node.id
      · rw [hn, ← hkey]
        exact hgroup
      · have hne : (⟨agentId, runId, nodeId⟩ : GroupKey) ≠ c.key := by
          rw [hkey]
          exact fun h => hn (GroupKey.mk.inj h).2.2
        rw [Call.items_execute_of_ne hne, Call.items_execute_of_ne hne]
        exact hitems nodeId

variable (reply) in
/-- The history of the level of an aggregating node, if the node is configured with a number or with
none. All calls have one key, and are settled in the same way. -/
theorem Engine.exists_history_of_config {configured : Option Nat}
    (hp : engine.registry.Provides node.nodeType Aggregate.definition)
    (hc : context.cancelled = false)
    (hcount : node.natural? "expected_count" = .ok configured)
    (hwhole : node.flag? "partial_results" ≠ some true) {es : List (Envelope Value)}
    (hes : ∀ e ∈ es, e.InRun agentId runId) (workspace : Workspace) (s : σ)
    (hidle : workspace.groups.Idle agentId runId) :
    ∃ calls : List Call, calls.map Call.input = es ∧
      (∀ c ∈ calls, c.node = node ∧ c.key = ⟨agentId, runId, node.id⟩ ∧
        c.settings = .ok (configured, false)) ∧
      (runLevel (engine.execute context reply node) es (workspace, s)).1.map Outcome.answer =
        (history calls).entries.map Entry.answer ∧
      ∀ nodeId,
        (runLevel (engine.execute context reply node) es
          (workspace, s)).2.1.groups.items ⟨agentId, runId, nodeId⟩ =
        (history calls).groups.items ⟨agentId, runId, nodeId⟩ := by
  obtain ⟨calls, hinputs, hnode, hanswers, hitems⟩ :=
    exists_history reply hp hc hes workspace s hidle
  refine ⟨calls, hinputs, fun c h => ⟨hnode c h, ?_, ?_⟩, hanswers, hitems⟩
  · obtain ⟨hagent, hrun⟩ := hes _ (hinputs ▸ List.mem_map_of_mem h)
    rw [Call.key, Aggregate.key, hagent, hrun, hnode c h]
  · have hflag : (node.flag? "partial_results").getD false = false := by
      cases hf : node.flag? "partial_results" with
      | none => rfl
      | some b => cases b <;> simp_all
    rw [Call.settings, hnode c h, hcount, hflag]
    rfl

/-- What comes of envelopes that are grouped. -/
structure GroupedLevel (size : Nat) (es : List (Envelope Value)) (os : List Outcome) : Prop where
  failures : os.filterMap Outcome.failure? = []
  pending : os.countP Outcome.isPending + (os.flatMap Outcome.emitted).length = es.length
  count : (os.flatMap Outcome.emitted).length = es.length / size
  block : ∀ e ∈ os.flatMap Outcome.emitted,
    (∃ items, e.data = .array items ∧ items.length = size) ∧
      e.metadata.get? MetaKey.aggregateCount = some (toString size)
  payloads : ((os.flatMap Outcome.emitted).flatMap fun e => payloads e.toMessage) =
    (es.map fun e => e.data).take (es.length / size * size)

variable (reply) in
/-- The level of an aggregating node, whose calls are all alike. -/
theorem Engine.grouped_level {configured : Option Nat} {size : Nat}
    (hp : engine.registry.Provides node.nodeType Aggregate.definition)
    (hc : context.cancelled = false)
    (hcount : node.natural? "expected_count" = .ok configured)
    (hwhole : node.flag? "partial_results" ≠ some true) {es : List (Envelope Value)}
    (hes : ∀ e ∈ es, e.InRun agentId runId)
    (hsize : ∀ e ∈ es, expected configured (some e.toMessage) = size) (hpos : 0 < size)
    (workspace : Workspace) (s : σ) (hidle : workspace.groups.Idle agentId runId) :
    let (os, later, _) := runLevel (engine.execute context reply node) es (workspace, s)
    GroupedLevel size es os ∧
      ∀ nodeId, later.groups.items ⟨agentId, runId, nodeId⟩ ≠ [] ↔
        nodeId = node.id ∧ ¬ size ∣ es.length := by
  obtain ⟨calls, hinputs, hcalls, hanswers, hitems⟩ :=
    exists_history_of_config reply hp hc hcount hwhole hes workspace s hidle
  have hinput {c : Call} (h : c ∈ calls) : c.input ∈ es := hinputs ▸ List.mem_map_of_mem h
  have halike : Alike calls ⟨agentId, runId, node.id⟩ size :=
    ⟨fun c h => (hcalls c h).2.1, ⟨configured, fun c h => (hcalls c h).2.2⟩,
      fun c h => (Call.blockSize_of_ok (hcalls c h).2.2).trans (hsize _ (hinput h)), hpos⟩
  obtain ⟨hnumber, hblock, hpayloads, hremainder⟩ := grouped_of_alike halike
  obtain ⟨hfailures, hpending, hemitted⟩ :=
    emitted_of_answers hanswers fun e he => halike.answer_cases he
  have hlength : calls.length = es.length := by rw [← hinputs, List.length_map]
  have hall : (runLevel (engine.execute context reply node) es (workspace, s)).1.length =
      es.length := by
    rw [← hlength, ← map_call_history calls, List.length_map]
    simpa using congrArg List.length hanswers
  refine ⟨⟨hfailures, hpending.trans hall, ?_, ?_, ?_⟩, ?_⟩
  · rw [← hlength, ← hnumber, ← hemitted, List.length_map]
  · intro e he
    exact hblock e.toMessage (hemitted ▸ List.mem_map_of_mem he)
  · rw [← hemitted, List.flatMap_map] at hpayloads
    rw [← hlength, hpayloads, ← hinputs, List.map_map]
    rfl
  · intro nodeId
    rw [hitems nodeId]
    constructor
    · intro hopen
      obtain ⟨c, hmem, hc⟩ := List.mem_map.mp (List.mem_toFinset.mp (mem_of_items_ne_nil hopen))
      obtain rfl := (GroupKey.mk.inj (hc.symm.trans (hcalls c hmem).2.1)).2.2
      refine ⟨rfl, fun hdvd => hopen ?_⟩
      rw [← List.length_eq_zero_iff, hremainder, hlength, Nat.mod_eq_zero_of_dvd hdvd]
    · rintro ⟨rfl, hndvd⟩ hnil
      rw [hnil, hlength] at hremainder
      exact hndvd (Nat.dvd_of_mod_eq_zero hremainder.symm)

end AggregateLevel

/-! ## The whole run -/

/-- The position that an envelope says it had in the sequence that was split. -/
def Dict.position? (metadata : Dict String) : Option String := metadata.get? MetaKey.splitIndex

/-- The positions of a sequence. -/
def positions (n : Nat) : List (Option String) := (List.range n).map fun i => some (toString i)

/-- A run that splits a sequence, passes every item through a chain of nodes and aggregates what comes
of them. No group of the run is open when it begins. -/
structure SplitRun {σ : Type} (engine : Engine) (context : NodeContext)
    (reply : (request : Request) → σ → request.Reply × σ) (split : NodeConfig)
    (chain : List NodeConfig) (aggregate : NodeConfig) (input : Envelope Value) (items : List Value)
    (configured : Option Nat) : Prop where
  alive : context.cancelled = false
  splits : engine.registry.Provides split.nodeType Split.definition
  aggregates : engine.registry.Provides aggregate.nodeType Aggregate.definition
  passes : ∀ node ∈ chain,
    engine.Passes context reply input.trace.agentId input.trace.runId node
  sequence : split.sequence input.data = .ok items
  nonempty : items ≠ []
  /-- The length of a sequence is a word. -/
  length_lt : configured = none → items.length < UInt64.size
  configured : aggregate.natural? "expected_count" = .ok configured
  whole : aggregate.flag? "partial_results" ≠ some true
  idle : engine.workspace.groups.Idle input.trace.agentId input.trace.runId

/-- What comes of such a run: `survivors` have come through the chain, in the order of the sequence,
and they are cut into groups of one size. -/
structure Regrouped (items : List Value) (size : Nat) (survivors : List (Envelope Value))
    (result : RunResult) : Prop where
  inOrder : (survivors.map fun e => e.metadata.position?).Sublist (positions items.length)
  accounted : ((survivors.map fun e => e.metadata.position?) ++
    result.failures.map fun f => f.envelope.metadata.position?).Perm (positions items.length)
  failures : result.failures.length = items.length - survivors.length
  outputs : result.outputs.length = survivors.length / size
  pending : result.pending = survivors.length - survivors.length / size
  payloads : (result.outputs.flatMap fun e => Aggregate.payloads e.toMessage) =
    (survivors.map fun e => e.data).take (survivors.length / size * size)
  group : ∀ e ∈ result.outputs, (∃ items, e.data = .array items ∧ items.length = size) ∧
    e.metadata.get? MetaKey.aggregateCount = some (toString size)

section SplitRun

variable {σ : Type} {engine : Engine} {context : NodeContext}
  {reply : (request : Request) → σ → request.Reply × σ} {split aggregate : NodeConfig}
  {chain : List NodeConfig} {input : Envelope Value} {items : List Value} {configured : Option Nat}

/-- What the envelopes of all items say. -/
def Split.messages (nodeId : String) (m : Message Value) (items : List Value) : List (Message Value) :=
  items.mapIdx fun index item =>
    (m.derive item ((m.trace.next nodeId).child nodeId index)).withMeta MetaKey.splitIndex (toString index)
      |>.withMeta MetaKey.splitTotal (toString items.length)

theorem Split.toMessage_children (nodeId : String) (e : Envelope Value) (items : List Value)
    (supply : Supply) : (children nodeId e items supply).1.map Envelope.toMessage =
      messages nodeId e.toMessage items := by
  rw [messages, List.mapIdx_eq_zipIdx_map]
  refine Issuing.map_each ?_ items.zipIdx supply
  exact fun _ _ => rfl

theorem Split.positions_messages (nodeId : String) (m : Message Value) (items : List Value) :
    ((Split.messages nodeId m items).map fun m => m.metadata.position?) = positions items.length := by
  refine List.ext_getElem (by simp [Split.messages, positions]) fun i h h' => ?_
  simp [Split.messages, positions, Dict.position?, Message.withMeta, MetaKey.splitIndex,
    MetaKey.splitTotal]

theorem Split.data_messages (nodeId : String) (m : Message Value) (items : List Value) :
    (Split.messages nodeId m items).map Message.data = items := by
  refine List.ext_getElem (by simp [Split.messages]) fun i h h' => ?_
  simp [Split.messages, Message.withMeta, Message.derive]

theorem Split.mem_messages {nodeId : String} {m m' : Message Value} {items : List Value}
    (h : m' ∈ Split.messages nodeId m items) :
    m'.metadata.get? MetaKey.splitTotal = some (toString items.length) ∧
      m'.trace.agentId = m.trace.agentId ∧ m'.trace.runId = m.trace.runId := by
  obtain ⟨i, hi, rfl⟩ := List.mem_mapIdx.mp h
  exact ⟨Dict.get?_insert_self .., rfl, rfl⟩

theorem Split.run_of_sequence {node : NodeConfig} {e : Envelope Value}
    (h : node.sequence e.data = .ok items) (hne : items ≠ []) :
    Split.run node e = .ok (.many <$> children node.id e items) := by
  have hempty : ¬ items.isEmpty := by simpa using hne
  rw [Split.run, h]
  show (if items.isEmpty then _ else _) = _
  rw [if_neg hempty]
  rfl

/-- Splitting a sequence. -/
theorem Engine.exists_split
    (h : SplitRun engine context reply split chain aggregate input items configured) (s : σ) :
    ∃ es workspace, runLevel (engine.execute context reply split) [input] (engine.workspace, s) =
        ([.ok (.many es)], workspace, s) ∧ workspace.groups = engine.workspace.groups ∧
      es.map Envelope.toMessage = Split.messages split.id input.toMessage items := by
  let made := Split.children split.id input items engine.workspace.supply
  have hexec : Split.definition.execute context split input engine.workspace =
      .finished { engine.workspace with supply := made.2 } (.ok (.many made.1)) := by
    show Activity.attempt (Split.run split input) engine.workspace = _
    rw [Split.run_of_sequence h.sequence h.nonempty]
    rfl
  obtain ⟨o, supply, hlevel, ho⟩ := exists_execute_of_finished reply h.splits h.alive hexec s
  obtain rfl := Outcome.eq_ok_of_answer ho
  refine ⟨made.1, { engine.workspace with supply }, ?_, rfl, Split.toMessage_children ..⟩
  rw [runLevel, hlevel]
  rfl

/-- The items on their way. -/
structure Scattered (items : List Value) (agentId runId : String) (es : List (Envelope Value)) :
    Prop where
  inRun : ∀ e ∈ es, e.InRun agentId runId
  positions : es.map (fun e => e.metadata.position?) = positions items.length
  total : ∀ e ∈ es, e.metadata.get? MetaKey.splitTotal = some (toString items.length)
  data : es.map (fun e => e.data) = items

theorem scattered_of_messages {nodeId : String} {es : List (Envelope Value)}
    (h : es.map Envelope.toMessage = Split.messages nodeId input.toMessage items) :
    Scattered items input.trace.agentId input.trace.runId es := by
  have hmem {e : Envelope Value} (he : e ∈ es) :
      e.toMessage ∈ Split.messages nodeId input.toMessage items := h ▸ List.mem_map_of_mem he
  constructor
  case inRun => exact fun e he => (Split.mem_messages (hmem he)).2
  case positions =>
    rw [← Split.positions_messages nodeId input.toMessage items, ← h, List.map_map]
    rfl
  case total => exact fun e he => (Split.mem_messages (hmem he)).1
  case data =>
    have hdata := Split.data_messages nodeId input.toMessage items
    rwa [← h, List.map_map] at hdata

/-- How many envelopes an aggregating node waits for. -/
theorem Survived.expected {agentId runId : String} {es : List (Envelope Value)} {r : RunResult}
    (h : Survived agentId runId es r) (hes : Scattered items agentId runId es)
    (hlength : configured = none → items.length < UInt64.size) :
    ∀ e ∈ r.outputs, Aggregate.expected configured (some e.toMessage) =
      max 1 (configured.getD items.length) := by
  intro e he
  obtain ⟨e', he', hmetadata⟩ : ∃ e' ∈ es, e'.metadata = e.metadata :=
    List.mem_map.mp (h.order.subset (List.mem_map_of_mem he))
  have htotal := hmetadata ▸ hes.total e' he'
  cases configured with
  | some n => rfl
  | none =>
    have hword : Text.word? (toString items.length) = some items.length :=
      Text.natural?_toString (hlength rfl)
    simp only [Aggregate.expected, Option.bind_some, htotal, hword, Option.none_or, Option.getD_some,
      Option.getD_none]

/-- A fan-out, a chain and an aggregating node. -/
theorem Regrouped.of_levels {agentId runId : String} {es : List (Envelope Value)} {r : RunResult}
    {os : List Outcome} {size : Nat} (hes : Scattered items agentId runId es)
    (hr : Survived agentId runId es r) (hos : GroupedLevel size r.outputs os) :
    Regrouped items size r.outputs
      (levelResult [.ok (.many es)] ++
        (r.withoutOutputs ++ (levelResult os ++ .ofOutputs (os.flatMap Outcome.emitted)))) := by
  have hpositions : (es.map fun e => e.metadata).map Dict.position? = positions items.length := by
    rw [← hes.positions, List.map_map]
    rfl
  have hfailures : (levelResult [.ok (.many es)] ++ (r.withoutOutputs ++
      (levelResult os ++ .ofOutputs (os.flatMap Outcome.emitted)))).failures = r.failures := by
    show [] ++ (r.failures ++ (os.filterMap Outcome.failure? ++ [])) = r.failures
    rw [hos.failures]
    simp
  have haccounted := hr.accounted.map Dict.position?
  rw [hpositions, List.map_append, List.map_map, List.map_map] at haccounted
  constructor
  case inOrder =>
    have horder := hr.order.map Dict.position?
    rwa [hpositions, List.map_map] at horder
  case accounted =>
    rw [hfailures]
    exact haccounted
  case failures =>
    have hlength := haccounted.length_eq
    simp only [List.length_append, List.length_map, positions, List.length_range] at hlength
    rw [hfailures]
    omega
  case outputs => exact hos.count
  case pending =>
    show 0 + (r.pending + (os.countP Outcome.isPending + 0)) = _
    have hpending := hos.pending
    rw [hr.pending]
    rw [hos.count] at hpending
    omega
  case payloads => exact hos.payloads
  case group => exact hos.block

/-- A fan-out, and the levels after it. -/
theorem runLevels_of_many {execute : Envelope Value → σ → Outcome × σ}
    {rest : List (Envelope Value → σ → Outcome × σ)} {e : Envelope Value}
    {es : List (Envelope Value)} {s s' : σ}
    (h : runLevel execute [e] s = ([.ok (.many es)], s')) :
    runLevels (execute :: rest) [e] s =
      (levelResult [.ok (.many es)] ++ (runLevels rest es s').1, (runLevels rest es s').2) := by
  rw [runLevels, h]
  simp only [List.flatMap_cons, List.flatMap_nil, List.append_nil, Outcome.emitted]

/-- What was split is grouped again. -/
theorem Engine.regrouped
    (h : SplitRun engine context reply split chain aggregate input items configured) (s : σ) :
    let survivors := (engine.run context reply (split :: chain) input s).1.outputs
    let (result, later, _) := engine.run context reply (split :: (chain ++ [aggregate])) input s
    let size := max 1 (configured.getD items.length)
    Regrouped items size survivors result ∧
      ∀ nodeId, later.workspace.groups.items
          ⟨input.trace.agentId, input.trace.runId, nodeId⟩ ≠ [] ↔
        nodeId = aggregate.id ∧ ¬ size ∣ survivors.length := by
  obtain ⟨es, workspace, hsplit, hgroups, hmessages⟩ := exists_split h s
  have hes := scattered_of_messages hmessages
  have hidle : workspace.groups.Idle input.trace.agentId input.trace.runId := hgroups ▸ h.idle
  obtain ⟨hsurvived, hlater⟩ := survived_chain h.passes hes.inRun workspace s hidle
  let state := runLevels (chain.map (engine.execute context reply)) es (workspace, s)
  have hbefore : (engine.run context reply (split :: chain) input s).1.outputs =
      state.1.outputs := by
    rw [run_eq, List.map_cons, runLevels_of_many hsplit]
    rfl
  have hlevel := grouped_level reply h.aggregates h.alive h.configured h.whole
    hsurvived.inRun (hsurvived.expected hes h.length_lt) (Nat.le_max_left ..) state.2.1 state.2.2
    hlater
  have hafter : engine.run context reply (split :: (chain ++ [aggregate])) input s =
      (levelResult [.ok (.many es)] ++ (state.1.withoutOutputs ++ 
        (runLevels [engine.execute context reply aggregate] state.1.outputs state.2).1), 
        { engine with workspace :=
          (runLevels [engine.execute context reply aggregate] state.1.outputs state.2).2.1 }, 
        (runLevels [engine.execute context reply aggregate] state.1.outputs state.2).2.2) := by
    rw [run_eq, List.map_cons, List.map_append, runLevels_of_many hsplit, runLevels_append]
    rfl
  obtain ⟨hgrouped, hopen⟩ := hlevel
  simp only [hbefore, hafter, runLevels]
  exact ⟨.of_levels hes hsurvived hgrouped, hopen⟩

/-- If nothing is lost, and groups are as long as the sequence, there is one group. -/
theorem Regrouped.single {survivors : List (Envelope Value)} {result : RunResult}
    (h : Regrouped items items.length survivors result) (hne : items ≠ [])
    (hall : survivors.length = items.length) :
    survivors.map (fun e => e.metadata.position?) = positions items.length ∧
      ∃ e, result.outputs = [e] ∧ e.data = .array (survivors.map fun e => e.data) := by
  refine ⟨h.inOrder.eq_of_length (by simp [positions, hall]), ?_⟩
  have hdiv : survivors.length / items.length = 1 := by
    rw [hall]
    exact Nat.div_self (List.length_pos_iff.mpr hne)
  obtain ⟨e, he⟩ := List.length_eq_one_iff.mp (h.outputs.trans hdiv)
  obtain ⟨⟨payloads, hdata, -⟩, -⟩ := h.group e (by simp [he])
  refine ⟨e, he, ?_⟩
  have hpayloads := h.payloads
  rw [hdiv, one_mul, ← hall, List.take_of_length_le (by simp), he, List.flatMap_singleton,
    Aggregate.payloads, hdata] at hpayloads
  rw [hdata, ← hpayloads]
  rfl

variable (reply) in
/-- A node that only logs fails on nothing and changes no payload. -/
theorem Engine.execute_log {node : NodeConfig}
    (hp : engine.registry.Provides node.nodeType DebugLog.definition)
    (hc : context.cancelled = false) (e : Envelope Value) (state : Workspace × σ) :
    ∃ e', (engine.execute context reply node e state).1 = .ok (.single e') ∧ e'.data = e.data := by
  let logged := e.forward node.id e.data state.1.supply
  have hlogs : DebugLog.definition.execute context node e state.1 =
      .finished { state.1 with supply := logged.2 } (.ok (.single logged.1)) := rfl
  obtain ⟨o, supply, hexec, ho⟩ := exists_execute_of_finished reply hp hc hlogs state.2
  exact ⟨logged.1, (congrArg Prod.fst hexec).trans (Outcome.eq_ok_of_answer ho), rfl⟩

theorem Engine.data_logged
    (hp : ∀ node ∈ chain, engine.registry.Provides node.nodeType DebugLog.definition)
    (hc : context.cancelled = false) (es : List (Envelope Value)) (state : Workspace × σ) :
    (runLevels (chain.map (engine.execute context reply)) es state).1.outputs.map
      (fun e => e.data) = es.map fun e => e.data := by
  induction chain generalizing es state with
  | nil => rfl
  | cons node chain ih =>
    have hlevel (es : List (Envelope Value)) (state : Workspace × σ) :
        ((runLevel (engine.execute context reply node) es state).1.flatMap Outcome.emitted).map
          (fun e => e.data) = es.map fun e => e.data := by
      induction es generalizing state with
      | nil => rfl
      | cons e es ih =>
        obtain ⟨e', he', hdata⟩ := execute_log reply (hp node (by simp)) hc e state
        rw [runLevel, List.flatMap_cons, he', List.map_append, ih, List.map_cons, ← hdata]
        rfl
    exact (ih (fun node hn => hp node (by simp [hn])) _ _).trans (hlevel es state)

/-- What comes through a chain that only logs. -/
theorem Engine.data_survivors
    (h : SplitRun engine context reply split chain aggregate input items configured)
    (hlogs : ∀ node ∈ chain, engine.registry.Provides node.nodeType DebugLog.definition) (s : σ) :
    (engine.run context reply (split :: chain) input s).1.outputs.map (fun e => e.data) = items := by
  obtain ⟨es, workspace, hsplit, -, hmessages⟩ := exists_split h s
  rw [run_eq, List.map_cons, runLevels_of_many hsplit]
  exact (data_logged hlogs h.alive es (workspace, s)).trans (scattered_of_messages hmessages).data

/-- **Splitting and aggregating regroups what survives.** `survivors` are the envelopes that come out
of the same run without the aggregating node. They keep the order of the sequence, and are cut into
groups of the configured size, or of the length of the sequence; all others are failures, and what does
not fill a group is pending. A group of the run stays open unless the size divides their number. If none
is lost and no size is configured, there is one group with all of them; and if the chain only logs,
none is lost, and they are the items. -/
theorem Engine.run_regroups
    (h : SplitRun engine context reply split chain aggregate input items configured) (s : σ) :
    let survivors := (engine.run context reply (split :: chain) input s).1.outputs
    let (result, later, _) := engine.run context reply (split :: (chain ++ [aggregate])) input s
    let size := max 1 (configured.getD items.length)
    Regrouped items size survivors result ∧
      (∀ nodeId, later.workspace.groups.items
          ⟨input.trace.agentId, input.trace.runId, nodeId⟩ ≠ [] ↔
        nodeId = aggregate.id ∧ ¬ size ∣ survivors.length) ∧
      (configured = none → survivors.length = items.length →
        survivors.map (fun e => e.metadata.position?) = positions items.length ∧
          ∃ e, result.outputs = [e] ∧ e.data = .array (survivors.map fun e => e.data)) ∧
      ((∀ node ∈ chain, engine.registry.Provides node.nodeType DebugLog.definition) →
        survivors.map (fun e => e.data) = items) := by
  obtain ⟨hregrouped, hopen⟩ := regrouped h s
  refine ⟨hregrouped, hopen, ?_, fun hlogs => data_survivors h hlogs s⟩
  rintro rfl hall
  have hsize : max 1 ((none : Option Nat).getD items.length) = items.length :=
    Nat.max_eq_right (List.length_pos_iff.mpr h.nonempty)
  exact (hsize ▸ hregrouped).single h.nonempty hall

end SplitRun

/-! ### A run to try things on -/

/-- An engine that has not run anything. -/
def freshEngine : Engine where
  workspace := { supply := ⟨1, default⟩ }

/-- Texts to be read, one of which is not JSON. -/
def texts : List Value := [.string "[]", .string "no", .string "null"]

/-- Splits a sequence. -/
def splitNode : NodeConfig := { id := "split", nodeType := "flow.split" }

/-- Reads texts. -/
def readNode : NodeConfig := { id := "read", nodeType := "transform.json_parse" }

/-- Groups pairs. -/
def pairNode : NodeConfig :=
  { id := "pair", nodeType := "flow.aggregate", config := .ofList [("expected_count", .string "2")] }

theorem splitRun_texts :
    SplitRun freshEngine (freshEngine.context "orders" "run-1") (Offline.reply default) splitNode
      [readNode] pairNode (sampleEnvelope 0 (.array texts)) texts (some 2) where
  alive := rfl
  splits := rfl
  aggregates := rfl
  passes node hnode := by
    rw [List.mem_singleton.mp hnode]
    exact Engine.passes_parse rfl rfl
  sequence := rfl
  nonempty := nofun
  length_lt := nofun
  configured := rfl
  whole := nofun
  idle _ := rfl

/-- Two of the three texts can be read. -/
theorem survivors_texts :
    (freshEngine.run (freshEngine.context "orders" "run-1") (Offline.reply default)
      [splitNode, readNode] (sampleEnvelope 0 (.array texts)) (.new {})).1.outputs.length = 2 := by
  rw [Engine.run_eq]
  rfl

theorem Engine.run_regroups_texts :
    let result := (freshEngine.run (freshEngine.context "orders" "run-1") (Offline.reply default)
      [splitNode, readNode, pairNode] (sampleEnvelope 0 (.array texts)) (.new {})).1
    SplitRun freshEngine (freshEngine.context "orders" "run-1") (Offline.reply default) splitNode
        [readNode] pairNode (sampleEnvelope 0 (.array texts)) texts (some 2) ∧
      result.outputs.length = 1 ∧ result.failures.length = 1 ∧ result.pending = 1 := by
  obtain ⟨h, -⟩ := Engine.run_regroups splitRun_texts (Exchange.new {})
  have hpairs : max 1 ((some 2).getD texts.length) = 2 := rfl
  refine ⟨splitRun_texts, h.outputs.trans ?_, h.failures.trans ?_, h.pending.trans ?_⟩ <;>
    rw [survivors_texts]
  · rw [hpairs]
  · rfl
  · rw [hpairs]

/-! ### The runs of the command line -/

namespace Command

variable {σ : Type} {engine : Engine} {context : NodeContext}
  {reply : (request : Request) → σ → request.Reply × σ} {input : Envelope Value}
  {path : Option String} {items : List Value}

variable (reply) in
/-- The pipeline that the command line splits sequences with. -/
theorem splitRun_splitPipeline (hregistry : engine.registry = .standard)
    (hgroups : engine.workspace.groups = {}) (hc : context.cancelled = false)
    (hitems : ∀ split ∈ (splitPipeline path none).head?, split.sequence input.data = .ok items)
    (hne : items ≠ []) (hlength : items.length < UInt64.size) :
    ∃ split log aggregate, splitPipeline path none = split :: ([log] ++ [aggregate]) ∧
      engine.registry.Provides log.nodeType DebugLog.definition ∧
      SplitRun engine context reply split [log] aggregate input items none := by
  have hlog : engine.registry.Provides "debug.log" DebugLog.definition :=
    hregistry ▸ rfl
  refine ⟨_, _, _, rfl, hlog, ?_⟩
  constructor
  case alive => exact hc
  case splits =>
    rw [hregistry]
    cases path <;> rfl
  case aggregates => exact hregistry ▸ rfl
  case passes =>
    intro node hnode
    rw [List.mem_singleton.mp hnode]
    exact Engine.passes_log hlog hc
  case sequence => exact hitems _ rfl
  case nonempty => exact hne
  case length_lt => exact fun _ => hlength
  case configured => rfl
  case whole => exact nofun
  case idle => exact fun _ => hgroups ▸ rfl

/-- **The items come out as they went in**, in one envelope. -/
theorem run_splitPipeline (hregistry : engine.registry = .standard)
    (hgroups : engine.workspace.groups = {}) (hc : context.cancelled = false)
    (hitems : ∀ split ∈ (splitPipeline path none).head?, split.sequence input.data = .ok items)
    (hne : items ≠ []) (hlength : items.length < UInt64.size) (s : σ) :
    (∃ e, (engine.run context reply (splitPipeline path none) input s).1.outputs = [e] ∧
        e.data = .array items) ∧
      (engine.run context reply (splitPipeline path none) input s).1.failures = [] := by
  obtain ⟨split, log, aggregate, hpipeline, hlog, h⟩ :=
    splitRun_splitPipeline reply hregistry hgroups hc hitems hne hlength
  have hdata := Engine.data_survivors h (by simpa using hlog) s
  have hall : (engine.run context reply [split, log] input s).1.outputs.length = items.length := by
    simpa using congrArg List.length hdata
  have hsize : max 1 ((none : Option Nat).getD items.length) = items.length :=
    Nat.max_eq_right (List.length_pos_iff.mpr hne)
  have hregrouped := (Engine.regrouped h s).1
  rw [hsize] at hregrouped
  obtain ⟨-, e, he, hpayload⟩ := hregrouped.single hne hall
  rw [hpipeline]
  refine ⟨⟨e, he, hpayload.trans (congrArg Value.array hdata)⟩, List.length_eq_zero_iff.mp ?_⟩
  exact hregrouped.failures.trans (by rw [hall, Nat.sub_self])

/-- What the command prints about. -/
theorem runOnce_splitPipeline (surroundings : Surroundings) {payload : Value}
    (hitems : ∀ split ∈ (splitPipeline path none).head?, split.sequence payload = .ok items)
    (hne : items ≠ []) (hlength : items.length < UInt64.size) :
    (∃ e, (runOnce surroundings "cli" (splitPipeline path none) payload).outputs = [e] ∧
        e.data = .array items) ∧
      (runOnce surroundings "cli" (splitPipeline path none) payload).failures = [] :=
  run_splitPipeline rfl rfl rfl hitems hne hlength _

end Command

end FlowEngine
