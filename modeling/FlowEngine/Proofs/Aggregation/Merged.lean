import FlowEngine.Proofs.Aggregation.Blocks
import FlowEngine.Proofs.Storage.Latest

/-!
# What a merged message says

A group becomes one message. It begins as a message that goes on from the first item, and takes in the other
items one after the other. So what belongs to the first item alone, the version and the trace, is that of
the first; what all items have is put together, and in three ways: payloads are listed, errors are strung
together, and dictionaries are laid on top of each other, so that of several values under one key the
latest is on top.

The invariant of the loop is that the message has gathered what the items so far say. It holds of the first
item, which is where an error or a payload would be counted twice if the loop began too early.

## Main definitions

* `Dict.Overlays`: dictionaries on top of each other.
* `Aggregate.Gathered`: the invariant of merging.
* `Aggregate.MergedFrom`: what a message says that has been merged from others.

## Main results

* `Aggregate.mergedFrom_mergedMessage`: any group, whatever it is made of.
* `Aggregate.mergedFrom_of_history`: the groups of a node that is called in any order.
-/

namespace FlowEngine

/-! ## Dictionaries -/

namespace Dict

variable {α : Type}

theorem mem_keys_extend {d other : Dict α} {key : String} :
    key ∈ (d.extend other).keys ↔ key ∈ other.keys ∨ key ∈ d.keys := by
  simp only [mem_keys_iff, get?_extend]
  cases other.get? key <;> simp

/-- The keys are those of all the dictionaries, and the value of each is that of the last one that has the
key. -/
structure Overlays (ds : List (Dict α)) (d : Dict α) : Prop where
  mem_keys_iff : ∀ key, key ∈ d.keys ↔ ∃ e ∈ ds, key ∈ e.keys
  get?_eq_some_iff : ∀ key a, d.get? key = some a ↔
    Latest (fun e a => e.get? key = some a) (fun e => key ∈ e.keys) ds a

theorem overlays_singleton (d : Dict α) : Overlays [d] d := by
  constructor
  · intro key
    simp
  · intro key a
    rw [← List.nil_append [d], latest_concat]
    simp

/-- One more dictionary on top. -/
theorem Overlays.extend {ds : List (Dict α)} {d : Dict α} (h : Overlays ds d) (other : Dict α) :
    Overlays (ds ++ [other]) (d.extend other) := by
  constructor
  · intro key
    rw [mem_keys_extend, h.mem_keys_iff]
    constructor
    · rintro (hother | ⟨e, he, hkey⟩)
      · exact ⟨other, List.mem_append_right _ List.mem_cons_self, hother⟩
      · exact ⟨e, List.mem_append_left _ he, hkey⟩
    · rintro ⟨e, he, hkey⟩
      rcases List.mem_append.mp he with he | he
      · exact .inr ⟨e, he, hkey⟩
      · obtain rfl := List.mem_singleton.mp he
        exact .inl hkey
  · intro key a
    rw [get?_extend, latest_concat, ← h.get?_eq_some_iff, Dict.mem_keys_iff]
    cases hother : other.get? key <;> simp

end Dict

namespace Aggregate

/-! ## Merging -/

/-- The message has gathered what the items say. -/
structure Gathered (items : List (Message Value)) (m : Message Value) : Prop where
  metadata : Dict.Overlays (items.map Message.metadata) m.metadata
  vars : Dict.Overlays (items.map Message.vars) m.vars
  binary : Dict.Overlays (items.map Message.binary) m.binary
  errors : m.errors = items.flatMap Message.errors

/-- A message that goes on from an item has gathered what it says. -/
theorem gathered_forward (first : Message Value) (nodeId : String) (payload : Value) :
    Gathered [first] (first.forward nodeId payload) where
  metadata := Dict.overlays_singleton first.metadata
  vars := Dict.overlays_singleton first.vars
  binary := Dict.overlays_singleton first.binary
  errors := by rw [List.flatMap_singleton]; rfl

/-- One more item. -/
theorem Gathered.absorb {items : List (Message Value)} {m : Message Value} (h : Gathered items m)
    (other : Message Value) : Gathered (items ++ [other]) (absorb m other) := by
  constructor
  · rw [List.map_append]
    exact h.metadata.extend other.metadata
  · rw [List.map_append]
    exact h.vars.extend other.vars
  · rw [List.map_append]
    exact h.binary.extend other.binary
  · rw [List.flatMap_append, List.flatMap_singleton, ← h.errors]
    rfl

/-- All the other items. -/
theorem Gathered.foldl_absorb {items : List (Message Value)} {m : Message Value} (h : Gathered items m)
    (others : List (Message Value)) : Gathered (items ++ others) (others.foldl Aggregate.absorb m) := by
  induction others generalizing items m with
  | nil =>
    rw [List.append_nil]
    exact h
  | cons other others ih =>
    rw [List.foldl_cons, ← List.singleton_append, ← List.append_assoc]
    exact ih (h.absorb other)

/-- What a message says that a node has merged from items, in the order of their arrival. -/
structure MergedFrom (nodeId : String) (items : List (Message Value)) (m : Message Value) : Prop where
  data : m.data = .array (items.map Message.data)
  dataType : m.dataType = .array
  metadata : ∃ d, Dict.Overlays (items.map Message.metadata) d ∧
    m.metadata = d.insert MetaKey.aggregateCount (toString items.length)
  vars : Dict.Overlays (items.map Message.vars) m.vars
  binary : Dict.Overlays (items.map Message.binary) m.binary
  errors : m.errors = items.flatMap Message.errors
  first : ∃ first, items.head? = some first ∧ m.version = first.version ∧
    m.trace = ⟨first.trace.agentId, first.trace.runId, first.trace.parentId, nodeId, nodeId, 1⟩

/-- Any group is merged into such a message. -/
theorem mergedFrom_mergedMessage (nodeId : String) (first : Message Value) (rest : List (Message Value)) :
    MergedFrom nodeId (first :: rest) (mergedMessage nodeId first rest) := by
  have hgathered := (gathered_forward first nodeId (.array [])).foldl_absorb rest
  obtain ⟨htype, hversion, htrace⟩ := foldl_absorb rest (first.forward nodeId (Value.array []))
  exact {
    data := rfl
    dataType := htype
    metadata := ⟨_, hgathered.metadata, rfl⟩
    vars := hgathered.vars
    binary := hgathered.binary
    errors := hgathered.errors
    first := ⟨first, rfl, hversion, htrace⟩ }

/-! ## Groups -/

/-- The calls of a block are all for one node. -/
theorem Divided.nodeId_eq {calls : List Call} {k : GroupKey} {blocks : List (List Entry)} {rest b : List Entry}
    (h : Divided calls k blocks rest) (hb : b ∈ blocks) : ∀ e ∈ b, e.call.node.id = k.nodeId := by
  intro e he
  have haccepted : e ∈ (history calls).accepted k :=
    h.accepted ▸ List.mem_append_left _ (List.mem_flatten_of_mem hb he)
  obtain ⟨-, hkey⟩ := List.mem_filter.mp haccepted
  rw [← (of_decide_eq_true hkey).1]
  rfl

/-- A block emits the message that is merged from its envelopes. -/
theorem IsBlock.exists_mergedFrom {b : List Entry} {nodeId : String} (h : IsBlock b)
    (hnode : ∀ e ∈ b, e.call.node.id = nodeId) :
    ∃ m, b.filterMap Entry.emitted? = [m] ∧ MergedFrom nodeId (b.map Entry.message) m := by
  obtain ⟨last, hlast, first, rest, hmessages, hemitted⟩ := h.exists_merged
  refine ⟨_, hemitted, ?_⟩
  rw [hnode last hlast, hmessages]
  exact mergedFrom_mergedMessage nodeId first rest

/-- Blocks emit one message each. -/
theorem forall₂_mergedFrom {blocks : List (List Entry)} {nodeId : String} (h : ∀ b ∈ blocks, IsBlock b)
    (hnode : ∀ b ∈ blocks, ∀ e ∈ b, e.call.node.id = nodeId) :
    List.Forall₂ (fun b m => MergedFrom nodeId (b.map Entry.message) m) blocks
      (blocks.flatten.filterMap Entry.emitted?) := by
  induction blocks with
  | nil => exact .nil
  | cons b blocks ih =>
    rw [List.forall_mem_cons] at h hnode
    obtain ⟨m, hemitted, hmerged⟩ := h.1.exists_mergedFrom hnode.1
    rw [List.flatten_cons, List.filterMap_append, hemitted]
    exact .cons hmerged (ih h.2 hnode.2)

/-- **Groups are merged.** A node may be called for envelopes of many groups, in any order and however it is
configured. The calls for one group that succeed are cut into blocks, and what the node emits for the group
is one message for each block, in order: the message that is merged from the envelopes of the block. -/
theorem mergedFrom_of_history (calls : List Call) (k : GroupKey) :
    ∃ blocks rest, Divided calls k blocks rest ∧
      List.Forall₂ (fun b m => MergedFrom k.nodeId (b.map Entry.message) m) blocks
        ((history calls).emitted k) := by
  obtain ⟨blocks, rest, h⟩ := exists_divided calls k
  have hrest : rest.filterMap Entry.emitted? = [] := by
    refine List.filterMap_eq_nil_iff.mpr fun e he => ?_
    rw [Entry.emitted?, h.pending e he]
  refine ⟨blocks, rest, h, ?_⟩
  rw [History.emitted_eq, h.accepted, List.filterMap_append, hrest, List.append_nil]
  exact forall₂_mergedFrom h.block fun b hb => h.nodeId_eq hb

end Aggregate

end FlowEngine
