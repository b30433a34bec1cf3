import FlowEngine.Nodes.Aggregate
import Mathlib.Data.Finset.Card

/-!
# Groups are cut into blocks

A node that aggregates is called for envelopes of many workflows, runs and nodes, in any order. Their
groups fill in one table, side by side. How many envelopes complete a group is found out anew at each
call, from the configuration or from the first envelope, and after it was emitted a group begins
again.

Seen from one key it is simple. The calls with that key that succeed are cut into blocks, in the order
of their arrival. A block is as long as its first call says, only its last call emits something, and
that is the whole block. What is left over is the open group. Nothing of this depends on calls with
other keys.

## Which configurations are alike

Blocks and their contents come out whatever the configurations are. Their sizes are as the first call
says only if the later calls with the same key agree with it, which is what `Uniform` says: a call
that asks for less than has arrived would close a block early.

## Main definitions

* `Call`, `Call.execute`: a call of the node, and what it does to the groups.
* `Call.blockSize`: how many envelopes make up the block that a call begins.
* `history`: calls one after the other, with their answers.
* `IsBlock`, `Divided`: a block, and how the calls with a key are divided.

## Main results

* `Call.execute_congr`, `Call.items_execute_of_ne`: a call sees and changes one group only.
* `history_filter`: what comes of a key depends on the calls with that key.
* `exists_divided`: the calls with a key are cut into blocks.
* `blocks_of_history`: all of this, and how many groups are open.
-/

namespace FlowEngine

namespace Aggregate

/-- What the envelope of a complete group says. -/
def mergedMessage (nodeId : String) (first : Message Value) (rest : List (Message Value)) : Message Value :=
  gather first rest (first.forward nodeId (Value.array []))

/-- What a call of the node answers. -/
abbrev Answer := Except NodeError NodeOutput

/-- A call of the node, with what it finds in the workspace besides the groups. -/
structure Call where
  node : NodeConfig
  input : Envelope Value
  supply : Supply
  variableStore : VariableStore := {}

namespace Call

variable (c : Call) (g : Groups)

/-- The group that the call is about. -/
def key : GroupKey := Aggregate.key c.node.id c.input.trace

/-- The configured number of envelopes, if there is one, and whether incomplete groups are
emitted. -/
def settings : Except NodeError (Option Nat × Bool) :=
  (c.node.natural? "expected_count").map fun configured =>
    (configured, (c.node.flag? "partial_results").getD false)

/-- The number of envelopes that the envelope itself speaks of. -/
def announced : Option Nat := (c.input.metadata.get? MetaKey.splitTotal).bind Text.word?

/-- How many envelopes make up the block that the call begins. -/
def blockSize : Nat :=
  match c.settings with
  | .ok (_, true) => 1
  | .ok (some n, false) => max 1 n
  | .ok (none, false) => max 1 (c.announced.getD 1)
  | .error _ => 0

/-- The envelope as it is kept in its group. -/
def copy : Envelope Value := (c.input.copy c.supply).1

/-- The envelope of the group, if the call completes it. -/
def whole (first : Envelope Value) (rest : List (Envelope Value)) : Envelope Value :=
  (merge c.node.id first rest (c.input.copy c.supply).2).1

/-- The answer of the call, and the groups that it leaves. -/
def execute : Answer × Groups :=
  let (answer, state) := run c.node c.input ⟨c.supply, c.variableStore, g⟩
  (answer, state.groups)

/-! ### One call -/

theorem toMessage_whole (first : Envelope Value) (rest : List (Envelope Value)) :
    (c.whole first rest).toMessage =
      mergedMessage c.node.id first.toMessage (rest.map Envelope.toMessage) :=
  rfl

/-- A call is an execution of the node type, in whatever context. -/
theorem definition_execute (context : NodeContext) :
    ∃ state, definition.execute context c.node c.input ⟨c.supply, c.variableStore, g⟩ =
      .finished state (c.execute g).1 ∧ state.groups = (c.execute g).2 :=
  ⟨_, rfl, rfl⟩

theorem execute_eq :
    c.execute g =
      match c.settings with
      | .error e => (.error e, g)
      | .ok (configured, isPartial) =>
        let (output, state) :=
          collect c.node c.input configured isPartial ⟨c.supply, c.variableStore, g⟩
        (.ok output, state.groups) := by
  simp only [execute, run, settings]
  cases c.node.natural? "expected_count" <;> rfl

variable {c g} {configured : Option Nat} {isPartial : Bool}

theorem blockSize_of_ok (h : c.settings = .ok (configured, isPartial)) :
    c.blockSize = if isPartial then 1 else expected configured (some c.input.toMessage) := by
  rw [blockSize, h]
  cases isPartial <;> cases configured <;> rfl

/-- A call that fails changes nothing. -/
theorem execute_of_error {e : NodeError} (h : c.settings = .error e) :
    c.execute g = (.error e, g) := by
  rw [execute_eq, h]

/-- A call that does not fail puts its envelope into its group. Then it waits, or it merges the group,
emits it and closes it. -/
theorem execute_of_ok {first : Envelope Value} {rest : List (Envelope Value)}
    (h : c.settings = .ok (configured, isPartial)) (hitems : g.items c.key ++ [c.copy] = first :: rest) :
    c.execute g =
      if rest.length + 1 < expected configured (some first.toMessage) ∧ ¬ isPartial then
        (.ok .pending, g.add c.key c.copy)
      else
        (.ok (.single (c.whole first rest)), (g.add c.key c.copy).close c.key) := by
  have hall : (g.add c.key c.copy).items c.key = first :: rest := by
    rw [Groups.items_add, if_pos rfl]
    exact hitems
  rw [execute_eq, h]
  simp only [key, copy] at hall ⊢
  simp only [collect, hall, List.length_cons, List.head?_cons, Option.map_some]
  split <;> rfl

theorem exists_first (held : List (Envelope Value)) (e : Envelope Value) :
    ∃ first rest, held ++ [e] = first :: rest :=
  List.exists_cons_of_ne_nil (by simp)

theorem isOk_execute : (c.execute g).1.isOk = c.settings.isOk := by
  rw [execute_eq]
  cases c.settings <;> rfl

/-- What a call may do to the groups. -/
theorem groups_execute (c : Call) (g : Groups) :
    (c.execute g).2 = g ∨ (c.execute g).2 = g.add c.key c.copy ∨
      (c.execute g).2 = (g.add c.key c.copy).close c.key := by
  cases hs : c.settings with
  | error e =>
    rw [execute_of_error hs]
    exact .inl rfl
  | ok settings =>
    obtain ⟨first, rest, hitems⟩ := exists_first (g.items c.key) c.copy
    rw [execute_of_ok hs hitems]
    split
    · exact .inr (.inl rfl)
    · exact .inr (.inr rfl)

/-- A call changes no group but its own. -/
theorem items_execute_of_ne {k : GroupKey} (h : k ≠ c.key) :
    (c.execute g).2.items k = g.items k := by
  rcases c.groups_execute g with hg | hg | hg <;> simp [hg, h]

theorem proper_execute (h : g.Proper) : (c.execute g).2.Proper := by
  rcases c.groups_execute g with hg | hg | hg <;> rw [hg]
  · exact h
  · exact h.add c.key c.copy
  · exact (h.add c.key c.copy).close c.key

/-- What a call answers, and what becomes of its group, depends on no other group. -/
theorem execute_congr {g' : Groups} (h : g.items c.key = g'.items c.key) :
    (c.execute g).1 = (c.execute g').1 ∧
      (c.execute g).2.items c.key = (c.execute g').2.items c.key := by
  cases hs : c.settings with
  | error e =>
    rw [execute_of_error hs, execute_of_error hs]
    exact ⟨rfl, h⟩
  | ok settings =>
    obtain ⟨first, rest, hitems⟩ := exists_first (g.items c.key) c.copy
    rw [execute_of_ok hs hitems, execute_of_ok hs (h ▸ hitems)]
    split <;> simp [h]

end Call

/-! ### Calls one after the other -/

/-- A call with its answer. -/
structure Entry where
  call : Call
  answer : Answer

namespace Entry

/-- What the call was given. -/
def message (e : Entry) : Message Value := e.call.input.toMessage

/-- What the call has emitted. -/
def emitted? (e : Entry) : Option (Message Value) :=
  match e.answer with
  | .ok (.single emitted) => some emitted.toMessage
  | _ => none

end Entry

/-- Calls with their answers, and the groups that are open after them. -/
structure History where
  entries : List Entry := []
  groups : Groups := {}

namespace History

/-- One more call. -/
def call (h : History) (c : Call) : History :=
  let (answer, groups) := c.execute h.groups
  ⟨h.entries ++ [⟨c, answer⟩], groups⟩

/-- The calls with a key. -/
def ofKey (h : History) (k : GroupKey) : List Entry := h.entries.filter fun e => e.call.key = k

/-- The calls with a key that have succeeded. -/
def accepted (h : History) (k : GroupKey) : List Entry :=
  h.entries.filter fun e => e.call.key = k ∧ e.answer.isOk

/-- What has been emitted for a key. -/
def emitted (h : History) (k : GroupKey) : List (Message Value) :=
  (h.ofKey k).filterMap Entry.emitted?

end History

/-- Calls one after the other, of a node that has not been called before. -/
def history (calls : List Call) : History := calls.foldl History.call {}

theorem history_append (calls : List Call) (c : Call) :
    history (calls ++ [c]) = (history calls).call c :=
  List.foldl_append

variable {calls : List Call} {c : Call} {k : GroupKey}

theorem mem_history {e : Entry} (h : e ∈ (history calls).entries) :
    e.call ∈ calls ∧ e.answer.isOk = e.call.settings.isOk := by
  induction calls using List.reverseRecOn with
  | nil => cases h
  | append_singleton calls c ih =>
    rw [history_append] at h
    rcases List.mem_append.mp h with h | h
    · exact ⟨List.mem_append_left _ (ih h).1, (ih h).2⟩
    · obtain rfl := List.mem_singleton.mp h
      exact ⟨by simp, Call.isOk_execute⟩

theorem proper_history (calls : List Call) : (history calls).groups.Proper := by
  induction calls using List.reverseRecOn with
  | nil => exact Groups.proper_empty
  | append_singleton calls c ih =>
    rw [history_append]
    exact Call.proper_execute ih

/-- **What comes of a key depends on the calls with that key**: their answers, and the open group. -/
theorem history_filter (calls : List Call) (k : GroupKey) :
    (history calls).ofKey k = (history (calls.filter fun c => c.key = k)).entries ∧
      (history calls).groups.items k =
        (history (calls.filter fun c => c.key = k)).groups.items k := by
  induction calls using List.reverseRecOn with
  | nil => exact ⟨rfl, rfl⟩
  | append_singleton calls c ih =>
    obtain ⟨hentries, hitems⟩ := ih
    rw [history_append, List.filter_append]
    by_cases hk : c.key = k
    · subst hk
      obtain ⟨hanswer, hgroup⟩ := Call.execute_congr hitems
      have hfilter : [c].filter (fun c' => c'.key = c.key) = [c] := by simp
      rw [hfilter, history_append]
      simp only [History.ofKey, History.call] at hentries ⊢
      rw [List.filter_append, hentries, hanswer]
      simpa using hgroup
    · have hfilter : [c].filter (fun c' => c'.key = k) = [] := by simp [hk]
      rw [hfilter, List.append_nil, ← hentries, ← hitems]
      refine ⟨?_, Call.items_execute_of_ne (Ne.symm hk)⟩
      simp [History.ofKey, History.call, hk]

/-! ### The blocks -/

/-- Calls that make up a block. All but the last are told to wait, and the last one is given the
whole block. -/
structure IsBlock (b : List Entry) : Prop where
  pending : ∀ e ∈ b.dropLast, e.answer = .ok .pending
  merged : ∃ last ∈ b.getLast?, ∃ first rest e, b.map Entry.message = first :: rest ∧
    last.answer = .ok (.single e) ∧ e.toMessage = mergedMessage last.call.node.id first rest

/-- All calls with a key that succeed are configured in the same way. -/
def Uniform (k : GroupKey) (calls : List Call) : Prop :=
  ∀ c ∈ calls, ∀ d ∈ calls, c.key = k → d.key = k →
    ∀ s t, c.settings = .ok s → d.settings = .ok t → s = t

/-- How the calls with a key are divided: into blocks that were emitted, and the calls that wait for
their block to be complete. -/
structure Divided (calls : List Call) (k : GroupKey) (blocks : List (List Entry))
    (rest : List Entry) : Prop where
  accepted : (history calls).accepted k = blocks.flatten ++ rest
  block : ∀ b ∈ blocks, IsBlock b
  size : Uniform k calls → ∀ b ∈ blocks, b.head?.map (fun e => e.call.blockSize) = some b.length
  pending : ∀ e ∈ rest, e.answer = .ok .pending
  room : Uniform k calls → ∀ e ∈ rest.head?, rest.length < e.call.blockSize
  items : ((history calls).groups.items k).map Envelope.toMessage = rest.map Entry.message

theorem Uniform.of_append (h : Uniform k (calls ++ [c])) : Uniform k calls :=
  fun c hc d hd => h c (List.mem_append_left _ hc) d (List.mem_append_left _ hd)

/-- Calls with one key, all of which succeed. -/
theorem accepted_eq_entries (h : ∀ c ∈ calls, c.key = k ∧ c.settings.isOk) :
    (history calls).accepted k = (history calls).entries := by
  refine List.filter_eq_self.mpr fun e he => ?_
  obtain ⟨hcall, hok⟩ := mem_history he
  obtain ⟨hkey, hsettings⟩ := h _ hcall
  exact decide_eq_true ⟨hkey, hok.trans hsettings⟩

theorem accepted_call (h : History) (c : Call) (k : GroupKey) :
    (h.call c).accepted k = h.accepted k ++
      if c.key = k ∧ c.settings.isOk then [⟨c, (c.execute h.groups).1⟩] else [] := by
  simp only [History.accepted, History.call, List.filter_append, ← Call.isOk_execute (g := h.groups)]
  split <;> simp_all

theorem divided_nil (k : GroupKey) : Divided [] k [] [] where
  accepted := rfl
  block _ hb := nomatch hb
  size _ _ hb := nomatch hb
  pending _ he := nomatch he
  room _ _ he := nomatch he
  items := rfl

section Step

variable {blocks : List (List Entry)} {rest : List Entry} {configured : Option Nat}
  {isPartial : Bool}

theorem Divided.settings_eq (h : Divided calls k blocks rest) (hu : Uniform k (calls ++ [c]))
    (hk : c.key = k) {s : Option Nat × Bool} (hs : c.settings = .ok s) {e : Entry} (he : e ∈ rest) :
    e.call.settings = .ok s := by
  have haccepted : e ∈ (history calls).accepted k := h.accepted ▸ List.mem_append_right _ he
  obtain ⟨hentry, hkey⟩ := List.mem_filter.mp haccepted
  obtain ⟨hkey, hok⟩ := of_decide_eq_true hkey
  obtain ⟨hcall, hsettings⟩ := mem_history hentry
  cases hs' : e.call.settings with
  | error e' =>
    rw [hsettings, hs'] at hok
    cases hok
  | ok t => rw [hu c (by simp) e.call (by simp [hcall]) hk hkey s t hs hs']

/-- The size of the block that is being filled is the one that the next call finds out, and so far
the block is shorter. -/
theorem Divided.exists_head (h : Divided calls k blocks rest) (hu : Uniform k (calls ++ [c]))
    (hk : c.key = k) (hs : c.settings = .ok (configured, isPartial)) {first : Message Value}
    {more : List (Message Value)}
    (hitems : rest.map Entry.message ++ [c.input.toMessage] = first :: more) (a : Answer) :
    ∃ e, (rest ++ [Entry.mk c a]).head? = some e ∧
      e.call.blockSize = (if isPartial then 1 else expected configured (some first)) ∧
      rest.length < if isPartial then 1 else expected configured (some first) := by
  cases rest with
  | nil =>
    obtain ⟨rfl, -⟩ := List.cons.inj hitems
    refine ⟨⟨c, a⟩, rfl, Call.blockSize_of_ok hs, ?_⟩
    split
    · exact Nat.one_pos
    · exact Nat.lt_of_lt_of_le Nat.one_pos (Nat.le_max_left ..)
  | cons e tail =>
    obtain ⟨rfl, -⟩ := List.cons.inj hitems
    have hsize := Call.blockSize_of_ok (h.settings_eq hu hk hs (by simp : e ∈ e :: tail))
    exact ⟨e, rfl, hsize, hsize ▸ h.room hu.of_append e rfl⟩

/-- A call that fails, or has another key, divides nothing. -/
theorem Divided.skip (h : Divided calls k blocks rest) (hc : c.key = k → c.settings.isOk = false) :
    Divided (calls ++ [c]) k blocks rest where
  accepted := by
    have hnot : ¬ (c.key = k ∧ c.settings.isOk) := by
      rintro ⟨hk, hok⟩
      rw [hc hk] at hok
      cases hok
    rw [history_append, accepted_call, if_neg hnot, List.append_nil, h.accepted]
  block := h.block
  size hu := h.size hu.of_append
  pending := h.pending
  room hu := h.room hu.of_append
  items := by
    rw [history_append, ← h.items]
    by_cases hk : k = c.key
    · cases hs : c.settings with
      | error e => simp only [History.call, Call.execute_of_error hs]
      | ok s =>
        have := hc hk.symm
        rw [hs] at this
        cases this
    · simp only [History.call, Call.items_execute_of_ne hk]

/-- A call that waits is put to the block that is being filled. -/
theorem Divided.wait (h : Divided calls k blocks rest) (hk : c.key = k)
    (hs : c.settings = .ok (configured, isPartial)) {first : Message Value}
    {more : List (Message Value)}
    (hitems : rest.map Entry.message ++ [c.input.toMessage] = first :: more)
    (hlt : more.length + 1 < expected configured (some first)) (hpartial : isPartial = false)
    (hexec : c.execute (history calls).groups =
      (.ok .pending, (history calls).groups.add c.key c.copy)) :
    Divided (calls ++ [c]) k blocks (rest ++ [⟨c, .ok .pending⟩]) where
  accepted := by
    rw [history_append, accepted_call, if_pos ⟨hk, by rw [hs]; rfl⟩, hexec, h.accepted,
      List.append_assoc]
  block := h.block
  size hu := h.size hu.of_append
  pending e he := by
    rcases List.mem_append.mp he with he | he
    · exact h.pending e he
    · rw [List.mem_singleton.mp he]
  room hu e he := by
    obtain ⟨e', hhead, hsize, -⟩ := h.exists_head hu hk hs hitems (.ok .pending)
    obtain rfl := Option.some.inj (hhead.symm.trans he)
    have hlength : rest.length = more.length := by simpa using congrArg List.length hitems
    rw [hsize, hpartial, List.length_append, hlength]
    exact hlt
  items := by
    rw [history_append]
    simp only [History.call, hexec]
    rw [Groups.items_add, if_pos hk.symm, List.map_append, List.map_append, ← h.items, hk]
    rfl

/-- A call that does not wait completes the block. -/
theorem Divided.complete (h : Divided calls k blocks rest) (hk : c.key = k)
    (hs : c.settings = .ok (configured, isPartial)) {first : Message Value}
    {more : List (Message Value)}
    (hitems : rest.map Entry.message ++ [c.input.toMessage] = first :: more)
    (hle : ¬ (more.length + 1 < expected configured (some first) ∧ ¬ isPartial)) {e : Envelope Value}
    (he : e.toMessage = mergedMessage c.node.id first more)
    (hexec : c.execute (history calls).groups =
      (.ok (.single e), ((history calls).groups.add c.key c.copy).close c.key)) :
    Divided (calls ++ [c]) k (blocks ++ [rest ++ [⟨c, .ok (.single e)⟩]]) [] where
  accepted := by
    rw [history_append, accepted_call, if_pos ⟨hk, by rw [hs]; rfl⟩, hexec, h.accepted]
    simp
  block b hb := by
    rcases List.mem_append.mp hb with hb | hb
    · exact h.block b hb
    · obtain rfl := List.mem_singleton.mp hb
      refine ⟨fun e he => h.pending e (by simpa using he), _, List.getLast?_concat, first, more, e, ?_,
        rfl, he⟩
      rw [List.map_append]
      exact hitems
  size hu b hb := by
    rcases List.mem_append.mp hb with hb | hb
    · exact h.size hu.of_append b hb
    · obtain rfl := List.mem_singleton.mp hb
      obtain ⟨entry, hhead, hsize, hlt⟩ := h.exists_head hu hk hs hitems (.ok (.single e))
      have hlength : rest.length = more.length := by simpa using congrArg List.length hitems
      rw [hhead, Option.map_some, hsize, List.length_append, List.length_singleton, hlength]
      rw [hlength] at hlt
      cases isPartial with
      | true =>
        rw [if_pos rfl] at hlt ⊢
        rw [Nat.lt_one_iff.mp hlt]
      | false =>
        have hle := Nat.not_lt.mp fun hmore => hle ⟨hmore, nofun⟩
        exact congrArg some (Nat.le_antisymm hle hlt)
  pending _ he := nomatch he
  room _ _ he := nomatch he
  items := by
    rw [history_append]
    simp [History.call, hexec, hk]

end Step

/-- **The calls with a key are cut into blocks.** -/
theorem exists_divided (calls : List Call) (k : GroupKey) :
    ∃ blocks rest, Divided calls k blocks rest := by
  induction calls using List.reverseRecOn with
  | nil => exact ⟨[], [], divided_nil k⟩
  | append_singleton calls c ih =>
    obtain ⟨blocks, rest, h⟩ := ih
    by_cases hk : c.key = k
    · cases hs : c.settings with
      | error e => exact ⟨blocks, rest, h.skip fun _ => by rw [hs]; rfl⟩
      | ok settings =>
        obtain ⟨configured, isPartial⟩ := settings
        obtain ⟨first, more, hitems⟩ := Call.exists_first ((history calls).groups.items k) c.copy
        have hexec := Call.execute_of_ok hs (hk.symm ▸ hitems)
        have hmessages : rest.map Entry.message ++ [c.input.toMessage] =
            first.toMessage :: more.map Envelope.toMessage := by
          rw [← h.items, ← List.map_cons, ← hitems, List.map_append]
          rfl
        rw [← List.length_map (f := Envelope.toMessage)] at hexec
        split at hexec
        · rename_i hlt
          exact ⟨_, _, h.wait hk hs hmessages hlt.1 (by simpa using hlt.2) hexec⟩
        · rename_i hle
          exact ⟨_, _, h.complete hk hs hmessages hle (c.toMessage_whole first more) hexec⟩
    · exact ⟨blocks, rest, h.skip fun h => absurd h hk⟩

/-! ### What is in the blocks -/

/-- The payloads that a merged message holds. -/
def payloads (m : Message Value) : List Value := m.data.asArray?.getD []

/-- Absorbing others changes neither the type of the payload nor the version nor the trace. -/
theorem foldl_absorb (ms : List (Message Value)) (m : Message Value) :
    (ms.foldl absorb m).dataType = m.dataType ∧ (ms.foldl absorb m).version = m.version ∧
      (ms.foldl absorb m).trace = m.trace := by
  induction ms generalizing m with
  | nil => exact ⟨rfl, rfl, rfl⟩
  | cons m' ms ih => exact ih _

theorem mergedMessage_data (nodeId : String) (first : Message Value) (rest : List (Message Value)) :
    (mergedMessage nodeId first rest).data = .array ((first :: rest).map Message.data) :=
  rfl

theorem mergedMessage_trace (nodeId : String) (first : Message Value) (rest : List (Message Value)) :
    (mergedMessage nodeId first rest).trace = first.trace.next nodeId :=
  (foldl_absorb rest _).2.2

/-- What all messages of a group say in their metadata, the merged one says too. -/
theorem get?_metadata_mergedMessage {nodeId key : String} {value : Option String} {first : Message Value}
    {rest : List (Message Value)} (hkey : key ≠ MetaKey.aggregateCount)
    (h : ∀ m ∈ first :: rest, m.metadata.get? key = value) :
    (mergedMessage nodeId first rest).metadata.get? key = value := by
  have absorbed (ms : List (Message Value)) (m : Message Value) (hm : m.metadata.get? key = value)
      (hms : ∀ m' ∈ ms, m'.metadata.get? key = value) :
      (ms.foldl absorb m).metadata.get? key = value := by
    induction ms generalizing m with
    | nil => exact hm
    | cons m' ms ih =>
      refine ih _ ?_ fun m'' h => hms m'' (by simp [h])
      rw [absorb, Dict.get?_extend, hms m' (by simp), hm]
      cases value <;> rfl
  rw [mergedMessage, gather, Message.withMeta, Dict.get?_insert, if_neg hkey]
  exact absorbed _ _ (h first (by simp)) fun m hm => h m (by simp [hm])

/-- A block emits one message, which is merged from all of it. -/
theorem IsBlock.exists_merged {b : List Entry} (h : IsBlock b) :
    ∃ last ∈ b, ∃ first rest, b.map Entry.message = first :: rest ∧
      b.filterMap Entry.emitted? = [mergedMessage last.call.node.id first rest] := by
  obtain ⟨last, hlast, first, rest, e, hmessages, hanswer, he⟩ := h.merged
  have hwaiting : b.dropLast.filterMap Entry.emitted? = [] := by
    refine List.filterMap_eq_nil_iff.mpr fun e he => ?_
    rw [Entry.emitted?, h.pending e he]
  refine ⟨last, List.mem_of_getLast? hlast, first, rest, hmessages, ?_⟩
  rw [← List.dropLast_append_getLast? last hlast, List.filterMap_append, hwaiting]
  simp [Entry.emitted?, hanswer, he]

/-- A merged message holds the payloads of the block, and says how many there are. -/
theorem IsBlock.exists_emitted {b : List Entry} (h : IsBlock b) :
    ∃ m, b.filterMap Entry.emitted? = [m] ∧ m.data = .array (b.map fun e => e.message.data) ∧
      m.metadata.get? MetaKey.aggregateCount = some (toString b.length) := by
  obtain ⟨last, -, first, rest, hmessages, hemitted⟩ := h.exists_merged
  refine ⟨mergedMessage last.call.node.id first rest, hemitted, ?_, ?_⟩
  · rw [mergedMessage_data, ← hmessages, List.map_map]
    rfl
  · have hlength : b.length = rest.length + 1 := by simpa using congrArg List.length hmessages
    rw [hlength]
    exact Dict.get?_insert_self ..

/-- A block emits its payloads, and nothing else. -/
theorem IsBlock.emitted {b : List Entry} (h : IsBlock b) :
    (b.filterMap Entry.emitted?).flatMap payloads = b.map fun e => e.message.data := by
  obtain ⟨m, hm, hdata, -⟩ := h.exists_emitted
  rw [hm, List.flatMap_singleton, payloads, hdata]
  rfl

/-- Calls that fail emit nothing. -/
theorem History.emitted_eq (h : History) (k : GroupKey) :
    h.emitted k = (h.accepted k).filterMap Entry.emitted? := by
  rw [emitted, ofKey, accepted, List.filterMap_filter, List.filterMap_filter]
  refine List.filterMap_congr fun e _ => ?_
  by_cases hk : e.call.key = k
  · cases ha : e.answer <;> simp [hk, ha, Entry.emitted?, Except.isOk, Except.toBool]
  · simp [hk]

/-- **Nothing is lost, repeated or mixed**: what was emitted for a key and what its open group holds
are what has arrived. -/
theorem emitted_append_items (calls : List Call) (k : GroupKey) :
    ((history calls).emitted k).flatMap payloads ++
        ((history calls).groups.items k).map (fun e => e.data) =
      ((history calls).accepted k).map fun e => e.message.data := by
  obtain ⟨blocks, rest, h⟩ := exists_divided calls k
  have hblocks : (blocks.flatten.filterMap Entry.emitted?).flatMap payloads =
      blocks.flatten.map fun e => e.message.data := by
    have hblock := h.block
    clear h
    induction blocks with
    | nil => rfl
    | cons b blocks ih =>
      rw [List.flatten_cons, List.filterMap_append, List.flatMap_append, List.map_append,
        (hblock b (by simp)).emitted, ih fun b' hb' => hblock b' (by simp [hb'])]
  have hrest : rest.filterMap Entry.emitted? = [] := by
    refine List.filterMap_eq_nil_iff.mpr fun e he => ?_
    rw [Entry.emitted?, h.pending e he]
  have hitems : ((history calls).groups.items k).map (fun e => e.data) =
      rest.map fun e => e.message.data := by
    simpa [Function.comp_def] using congrArg (List.map Message.data) h.items
  rw [History.emitted_eq, h.accepted, List.filterMap_append, hrest, List.append_nil, hblocks, hitems,
    List.map_append]

/-! ### The open groups -/

theorem mem_of_items_ne_nil (h : (history calls).groups.items k ≠ []) :
    k ∈ (calls.map Call.key).toFinset := by
  obtain ⟨blocks, rest, hd⟩ := exists_divided calls k
  have hne : rest ≠ [] := by
    rintro rfl
    exact h (List.map_eq_nil_iff.mp hd.items)
  obtain ⟨e, he⟩ := List.exists_mem_of_ne_nil rest hne
  have haccepted : e ∈ (history calls).accepted k := hd.accepted ▸ List.mem_append_right _ he
  obtain ⟨hentry, hkey⟩ := List.mem_filter.mp haccepted
  rw [List.mem_toFinset]
  exact List.mem_map.mpr ⟨e.call, (mem_history hentry).1, (of_decide_eq_true hkey).1⟩

/-- As many groups are open as there are keys with envelopes that wait. -/
theorem count_history (calls : List Call) :
    (history calls).groups.count =
      ((calls.map Call.key).toFinset.filter fun k => (history calls).groups.items k ≠ []).card := by
  have hproper := proper_history calls
  have hkeys : (calls.map Call.key).toFinset.filter
      (fun k => (history calls).groups.items k ≠ []) =
        ((history calls).groups.entries.map Prod.fst).toFinset := by
    ext k
    rw [Finset.mem_filter, List.mem_toFinset, List.mem_toFinset, hproper.mem_map_fst_iff,
      ← List.mem_toFinset]
    exact and_iff_right_of_imp mem_of_items_ne_nil
  rw [hkeys, List.toFinset_card_of_nodup hproper.distinct, List.length_map, Groups.count]

/-- **Groups are cut into blocks.** For every key, the calls that succeed are cut into blocks and the
open group, in the order of their arrival; what was emitted is what the blocks hold. What comes of a
key depends on the calls with that key. A call that fails, which is one that is not configured with a
number, changes no group at all. No group is stored empty, and as many are open as there are keys with
envelopes that wait. -/
theorem blocks_of_history (calls : List Call) :
    (∀ k, ∃ blocks rest, Divided calls k blocks rest) ∧
      (∀ k, ((history calls).emitted k).flatMap payloads ++
          ((history calls).groups.items k).map (fun e => e.data) =
        ((history calls).accepted k).map fun e => e.message.data) ∧
      (∀ k, (history calls).ofKey k = (history (calls.filter fun c => c.key = k)).entries ∧
        (history calls).groups.items k =
          (history (calls.filter fun c => c.key = k)).groups.items k) ∧
      (∀ (c : Call) (g : Groups) (e : NodeError), (c.execute g).1 = .error e →
        c.node.natural? "expected_count" = .error e ∧ (c.execute g).2 = g) ∧
      (∀ x ∈ (history calls).groups.entries, x.2 ≠ []) ∧
      (history calls).groups.count =
        ((calls.map Call.key).toFinset.filter fun k => (history calls).groups.items k ≠ []).card := by
  refine ⟨exists_divided calls, emitted_append_items calls, history_filter calls, ?_,
    (proper_history calls).nonempty, count_history calls⟩
  intro c g e he
  cases hn : c.node.natural? "expected_count" with
  | error e' =>
    have hs : c.settings = .error e' := by rw [Call.settings, hn]; rfl
    rw [Call.execute_of_error hs] at he ⊢
    exact ⟨congrArg _ (Except.error.inj he), rfl⟩
  | ok configured =>
    have hok := Call.isOk_execute (c := c) (g := g)
    rw [he, Call.settings, hn] at hok
    cases hok

/-! ### Calls to try things on -/

/-- A call for an item of a sequence. -/
def itemCall (runId total item : String) : Call where
  node := { id := "merge", nodeType := "flow.aggregate" }
  input :=
    { (Message.new (.string item) (.start "orders" runId "input")).withMeta MetaKey.splitTotal
        total with
      id := .ofNat 0
      issuedAt := default }
  supply := ⟨1, default⟩

/-- Two runs whose items arrive in turn. -/
def interleaved : List Call :=
  [itemCall "run-1" "2" "a", itemCall "run-2" "2" "x", itemCall "run-1" "2" "b",
    itemCall "run-1" "2" "c"]

theorem blocks_of_history_interleaved :
    Uniform ⟨"orders", "run-1", "merge"⟩ interleaved ∧
      (∃ blocks rest, Divided interleaved ⟨"orders", "run-1", "merge"⟩ blocks rest ∧
        ∀ b ∈ blocks, b.head?.map (fun e => e.call.blockSize) = some b.length) ∧
      ((history interleaved).emitted ⟨"orders", "run-1", "merge"⟩).flatMap payloads =
        [.string "a", .string "b"] ∧
      ((history interleaved).accepted ⟨"orders", "run-1", "merge"⟩).map
        (fun e => e.message.data) = [.string "a", .string "b", .string "c"] ∧
      (history interleaved).groups.count = 2 := by
  have hsettings : ∀ c ∈ interleaved, c.settings = .ok (none, false) := by
    simp only [interleaved, List.forall_mem_cons, List.not_mem_nil, false_implies, implies_true]
    exact ⟨rfl, rfl, rfl, rfl, trivial⟩
  have huniform : Uniform ⟨"orders", "run-1", "merge"⟩ interleaved := by
    intro c hc d hd _ _ s t hs ht
    rw [hsettings c hc] at hs
    rw [hsettings d hd] at ht
    exact Except.ok.inj (hs.symm.trans ht)
  obtain ⟨hdivided, harrived, -⟩ := blocks_of_history interleaved
  obtain ⟨blocks, rest, h⟩ := hdivided ⟨"orders", "run-1", "merge"⟩
  exact ⟨huniform, ⟨blocks, rest, h, h.size huniform⟩, rfl, (harrived _).symm, rfl⟩

end Aggregate

end FlowEngine
