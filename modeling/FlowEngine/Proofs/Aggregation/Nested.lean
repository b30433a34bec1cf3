import FlowEngine.Proofs.Aggregation.Regrouped

/-!
# Sequences of sequences

A sequence of sequences is split, and each of its items is split again. One aggregating node gathers
what came of the inner sequences, and a second one gathers what the first one emits. Whether the
brackets match is a question of sizes. Splitting again overwrites the length that the outer split has
written, and merging keeps what its envelopes agree on. So what the inner node emits still speaks of
the length of the inner sequence, and this is what the outer node goes by: the first envelope of a group
says how many belong to it.

The inner node works as one expects. The outer node cuts the sequence into groups each of which is as
long as its first inner sequence. An empty inner sequence goes through both nodes as one envelope that
holds it, so that it comes out with a pair of brackets more, and counts as one.

## Main definitions

* `Cut`: a list in parts, each as long as its first element says.
* `Split.pieces`: the payloads that are emitted for a sequence, even if it is empty.
* `NestedRun`: a run of this shape.

## Main results

* `Cut.unique`: there is only one way to cut.
* `Engine.cut_level`: an aggregating node cuts what it is given.
* `Engine.gathered_level`: what came of several sequences is cut into these.
* `Engine.run_nested`: what comes back of a sequence of sequences.
-/

namespace FlowEngine

/-! ## Cutting a list -/

/-- A list in parts, each as long as its first element says. What is left over is too short for
that. -/
structure Cut {α : Type} (size : α → Nat) (xs : List α) (parts : List (List α)) (rest : List α) :
    Prop where
  all : xs = parts.flatten ++ rest
  full : ∀ p ∈ parts, p.head?.map size = some p.length
  room : ∀ x ∈ rest.head?, rest.length < size x

namespace Cut

variable {α β : Type} {size : α → Nat} {xs : List α} {parts parts' : List (List α)}
  {rest rest' : List α}

/-- Parts of the right length. -/
theorem of_full (h : ∀ p ∈ parts, p.head?.map size = some p.length) :
    Cut size parts.flatten parts [] where
  all := (List.append_nil _).symm
  full := h
  room := nofun

theorem tail {p : List α} (h : Cut size xs (p :: parts) rest) :
    Cut size (parts.flatten ++ rest) parts rest where
  all := rfl
  full q hq := h.full q (by simp [hq])
  room := h.room

/-- If something is left over then there is no room for a whole part. -/
theorem rest_ne_append (h : Cut size xs parts rest) {p more : List α}
    (hp : p.head?.map size = some p.length) : rest ≠ p ++ more := by
  rintro rfl
  cases p with
  | nil => cases hp
  | cons x p =>
    have hroom := h.room x rfl
    rw [Option.some.inj hp, List.length_append] at hroom
    omega

/-- **There is only one way to cut.** -/
theorem unique (h : Cut size xs parts rest) (h' : Cut size xs parts' rest') :
    parts = parts' ∧ rest = rest' := by
  induction parts generalizing xs parts' with
  | nil =>
    cases parts' with
    | nil => exact ⟨rfl, h.all.symm.trans h'.all⟩
    | cons p' parts' =>
      have hrest : rest = p' ++ (parts'.flatten ++ rest') := by
        rw [← List.append_assoc, ← List.flatten_cons, ← h'.all, h.all]
        rfl
      exact absurd hrest (h.rest_ne_append (h'.full p' (by simp)))
  | cons p parts ih =>
    have hp := h.full p (by simp)
    have hxs : xs = p ++ (parts.flatten ++ rest) := by
      rw [h.all, List.flatten_cons, List.append_assoc]
    cases parts' with
    | nil => exact absurd (h'.all.symm.trans hxs) (h'.rest_ne_append hp)
    | cons p' parts' =>
      have hp' := h'.full p' (by simp)
      have hxs' : xs = p' ++ (parts'.flatten ++ rest') := by
        rw [h'.all, List.flatten_cons, List.append_assoc]
      -- Both parts begin with the head of the list, which says how long they are.
      have hlength : p.length = p'.length := by
        cases p with
        | nil => cases hp
        | cons x p =>
          cases p' with
          | nil => cases hp'
          | cons x' p' =>
            obtain ⟨rfl, -⟩ := List.cons.inj (hxs.symm.trans hxs')
            exact Option.some.inj (hp.symm.trans hp')
      obtain ⟨rfl, hmore⟩ := List.append_inj (hxs.symm.trans hxs') hlength
      obtain ⟨rfl, rfl⟩ := ih h.tail (hmore ▸ h'.tail)
      exact ⟨rfl, rfl⟩

/-- A list whose elements say the same is cut in the same way. -/
theorem transfer (size' : β → Nat) {R : β → α → Prop} (hR : ∀ y x, R y x → size' y = size x)
    {ys : List β} (hys : List.Forall₂ R ys xs) (h : Cut size xs parts rest) :
    ∃ partsOf restOf, Cut size' ys partsOf restOf ∧
      List.Forall₂ (List.Forall₂ R) partsOf parts ∧ List.Forall₂ R restOf rest := by
  induction parts generalizing xs ys with
  | nil =>
    rw [h.all] at hys
    refine ⟨[], ys, ⟨rfl, nofun, fun y hy => ?_⟩, .nil, hys⟩
    cases hys with
    | nil => cases hy
    | cons hyx htail =>
      obtain rfl := Option.some.inj hy
      rw [hR _ _ hyx, List.length_cons, htail.length_eq]
      exact h.room _ rfl
  | cons p parts ih =>
    rw [h.all, List.flatten_cons, List.append_assoc] at hys
    have hhead := List.forall₂_take_append _ _ _ hys
    obtain ⟨partsOf, restOf, hcut, hparts, hrest⟩ := ih (List.forall₂_drop_append _ _ _ hys) h.tail
    refine ⟨ys.take p.length :: partsOf, restOf, ⟨?_, ?_, hcut.room⟩, .cons hhead hparts, hrest⟩
    · rw [List.flatten_cons, List.append_assoc, ← hcut.all, List.take_append_drop]
    · intro q hq
      rcases List.mem_cons.mp hq with rfl | hq
      · have hfull := h.full p (by simp)
        generalize ys.take p.length = q at hhead
        cases hhead with
        | nil => cases hfull
        | cons hyx htail =>
          rw [List.head?_cons, Option.map_some, hR _ _ hyx, List.length_cons, htail.length_eq]
          exact hfull
      · exact hcut.full q hq

end Cut

/-! ## An aggregating node cuts what it is given -/

/-- How many envelopes belong to a group that begins with this one. -/
def Envelope.groupSize (e : Envelope Value) : Nat := Aggregate.expected none (some e.toMessage)

/-- A node that splits payloads. -/
structure Engine.Splits (engine : Engine) (node : NodeConfig) : Prop where
  provides : engine.registry.Provides node.nodeType Split.definition
  path : node.nonemptyText? "path" = none

/-- A node that gathers as many envelopes as the first one of a group speaks of. -/
structure Engine.Gathers (engine : Engine) (node : NodeConfig) : Prop where
  provides : engine.registry.Provides node.nodeType Aggregate.definition
  count : node.natural? "expected_count" = .ok none
  whole : node.flag? "partial_results" ≠ some true

/-- The envelope that a group becomes. -/
def IsMerged (nodeId : String) (group : List (Envelope Value)) (e : Envelope Value) : Prop :=
  ∃ first rest, group = first :: rest ∧
    e.toMessage = Aggregate.mergedMessage nodeId first.toMessage (rest.map Envelope.toMessage)

namespace Aggregate

/-- What blocks have emitted. -/
theorem forall₂_merged {nodeId : String} {blocks : List (List Entry)} {es : List (Envelope Value)}
    (hblocks : ∀ b ∈ blocks, IsBlock b) (hnode : ∀ b ∈ blocks, ∀ e ∈ b, e.call.node.id = nodeId)
    (h : es.map Envelope.toMessage = blocks.flatten.filterMap Entry.emitted?) :
    List.Forall₂ (fun b e => IsMerged nodeId (b.map fun x => x.call.input) e) blocks es := by
  induction blocks generalizing es with
  | nil =>
    obtain rfl := List.map_eq_nil_iff.mp h
    exact .nil
  | cons b blocks ih =>
    obtain ⟨last, hlast, first, rest, hmessages, hemitted⟩ := (hblocks b (by simp)).exists_merged
    rw [List.flatten_cons, List.filterMap_append, hemitted, List.singleton_append] at h
    obtain ⟨e, es, rfl, he, hes⟩ := List.map_eq_cons_iff.mp h
    refine .cons ?_ (ih (fun b hb => hblocks b (by simp [hb])) (fun b hb => hnode b (by simp [hb]))
      hes)
    obtain ⟨x, b, rfl, rfl, rfl⟩ := List.map_eq_cons_iff.mp hmessages
    refine ⟨_, _, rfl, he.trans ?_⟩
    rw [hnode _ (by simp) last hlast, List.map_map]
    rfl

namespace Divided

variable {calls : List Call} {k : GroupKey} {blocks : List (List Entry)} {rest : List Entry} {e : Entry}

theorem answer_cases (h : Divided calls k blocks rest) (he : e ∈ blocks.flatten ++ rest) :
    e.answer = .ok .pending ∨ ∃ merged, e.answer = .ok (.single merged) := by
  rcases List.mem_append.mp he with he | he
  · obtain ⟨b, hb, he⟩ := List.mem_flatten.mp he
    exact (h.block b hb).answer_cases he
  · exact .inl (h.pending e he)

/-- Calls that wait have emitted nothing. -/
theorem emitted_rest (h : Divided calls k blocks rest) : rest.filterMap Entry.emitted? = [] := by
  refine List.filterMap_eq_nil_iff.mpr fun e he => ?_
  rw [Entry.emitted?, h.pending e he]

/-- The group is open as long as calls wait. -/
theorem items_eq_nil_iff (h : Divided calls k blocks rest) :
    (history calls).groups.items k = [] ↔ rest = [] := by
  rw [← List.length_eq_zero_iff, ← List.length_eq_zero_iff, ← List.length_map (f := Envelope.toMessage),
    h.items, List.length_map]

/-- If the first envelope of a group says how large the group is, the inputs are cut. -/
theorem cut (h : Divided calls k blocks rest) (hu : Uniform k calls)
    (hsize : ∀ e ∈ blocks.flatten ++ rest, e.call.blockSize = e.call.input.groupSize) :
    Cut Envelope.groupSize ((blocks.flatten ++ rest).map fun e => e.call.input)
      (blocks.map (List.map fun e => e.call.input)) (rest.map fun e => e.call.input) := by
  constructor
  case all => rw [List.map_append, List.map_flatten]
  case full =>
    intro p hp
    obtain ⟨b, hb, rfl⟩ := List.mem_map.mp hp
    have hfull := h.size hu b hb
    cases b with
    | nil => cases hfull
    | cons e b =>
      have he : e ∈ blocks.flatten ++ rest :=
        List.mem_append_left _ (List.mem_flatten_of_mem hb List.mem_cons_self)
      rw [List.head?_cons, Option.map_some, hsize e he] at hfull
      rw [List.length_map]
      exact hfull
  case room =>
    intro x hx
    cases rest with
    | nil => cases hx
    | cons e rest =>
      obtain rfl := Option.some.inj hx
      rw [← hsize e (by simp), List.length_map]
      exact h.room hu e rfl

end Divided

end Aggregate

section Levels

open Aggregate

variable {σ : Type} {engine : Engine} {context : NodeContext}
  {reply : (request : Request) → σ → request.Reply × σ} {agentId runId : String}
  {node : NodeConfig}

variable (reply) in
/-- **An aggregating node cuts what it is given.** Nothing fails, every part is merged, and the group
is open if something is left over. -/
theorem Engine.cut_level (hn : engine.Gathers node) (hc : context.cancelled = false)
    {es : List (Envelope Value)} (hes : ∀ e ∈ es, e.InRun agentId runId) (workspace : Workspace)
    (s : σ) (hidle : workspace.groups.Idle agentId runId) :
    let (os, later, _) := runLevel (engine.execute context reply node) es (workspace, s)
    ∃ parts rest, Cut Envelope.groupSize es parts rest ∧
      os.filterMap Outcome.failure? = [] ∧
      List.Forall₂ (IsMerged node.id) parts (os.flatMap Outcome.emitted) ∧
      ∀ nodeId, later.groups.items ⟨agentId, runId, nodeId⟩ ≠ [] ↔ nodeId = node.id ∧ rest ≠ [] := by
  obtain ⟨calls, hinputs, hcalls, hanswers, hitems⟩ :=
    exists_history_of_config reply hn.provides hc hn.count hn.whole hes workspace s hidle
  let k : GroupKey := ⟨agentId, runId, node.id⟩
  obtain ⟨blocks, rest, hd⟩ := exists_divided calls k
  have hentries : (history calls).entries = blocks.flatten ++ rest := by
    rw [← hd.accepted, accepted_eq_entries]
    intro c h
    rw [(hcalls c h).2.2]
    exact ⟨(hcalls c h).2.1, rfl⟩
  have huniform : Uniform k calls := by
    intro c hc d hd _ _ s t hs ht
    rw [(hcalls c hc).2.2] at hs
    rw [(hcalls d hd).2.2] at ht
    exact Except.ok.inj (hs.symm.trans ht)
  have hcall (e : Entry) (he : e ∈ blocks.flatten ++ rest) : e.call ∈ calls :=
    (mem_history (hentries ▸ he)).1
  have hcut := hd.cut huniform fun e he => Call.blockSize_of_ok (hcalls _ (hcall e he)).2.2
  have hinput : es = (blocks.flatten ++ rest).map fun e => e.call.input := by
    rw [← hentries, ← hinputs, ← map_call_history calls, List.map_map, map_call_history]
    rfl
  obtain ⟨hfailures, -, hemitted⟩ := emitted_of_answers hanswers fun e he => hd.answer_cases (hentries ▸ he)
  rw [hentries, List.filterMap_append, hd.emitted_rest, List.append_nil] at hemitted
  refine ⟨_, _, hinput ▸ hcut, hfailures, ?_, fun nodeId => ?_⟩
  · rw [List.forall₂_map_left_iff]
    refine forall₂_merged hd.block (fun b hb e he => ?_) hemitted
    rw [(hcalls _ (hcall e (List.mem_append_left _ (List.mem_flatten_of_mem hb he)))).1]
  · rw [hitems nodeId]
    constructor
    · intro hne
      obtain ⟨c, hmem, hc⟩ := List.mem_map.mp (List.mem_toFinset.mp (mem_of_items_ne_nil hne))
      obtain rfl := (GroupKey.mk.inj (hc.symm.trans (hcalls c hmem).2.1)).2.2
      exact ⟨rfl, fun hrest => hne (hd.items_eq_nil_iff.mpr (List.map_eq_nil_iff.mp hrest))⟩
    · rintro ⟨rfl, hrest⟩ hnil
      exact hrest (List.map_eq_nil_iff.mpr (hd.items_eq_nil_iff.mp hnil))

end Levels

/-! ## Splitting sequences that may be empty -/

namespace Split

/-- The payloads that are emitted for a sequence, if an empty one is passed through. -/
def pieces : List Value → List Value
  | [] => [.array []]
  | items => items

theorem length_pieces (items : List Value) : (pieces items).length = max 1 items.length := by
  cases items <;> simp [pieces]

theorem pieces_eq_self_iff (items : List Value) : pieces items = items ↔ items ≠ [] := by
  cases items <;> simp [pieces]

/-- What is emitted for one of several sequences. -/
structure IsChunk (agentId runId : String) (items : List Value) (es : List (Envelope Value)) :
    Prop where
  inRun : ∀ e ∈ es, e.InRun agentId runId
  total : ∀ e ∈ es, e.metadata.get? MetaKey.splitTotal = some (toString items.length)
  data : es.map (fun e => e.data) = pieces items

/-- An envelope that holds a sequence. -/
structure Holds (agentId runId : String) (items : List Value) (e : Envelope Value) : Prop where
  inRun : e.InRun agentId runId
  data : e.data = .array items

theorem sequence_of_path {node : NodeConfig} (h : node.nonemptyText? "path" = none)
    (items : List Value) : node.sequence (.array items) = .ok items := by
  rw [NodeConfig.sequence, h]
  rfl

/-- What a node answers that passes empty sequences through. -/
theorem exists_answer {node : NodeConfig} {agentId runId : String} {items : List Value}
    {e : Envelope Value} (hpath : node.nonemptyText? "path" = none)
    (hempty : node.flag? "preserve_empty" = some true) (h : Holds agentId runId items e) :
    ∃ work, run node e = .ok work ∧
      ∀ supply, IsChunk agentId runId items (work supply).1.envelopes := by
  have hsequence : node.sequence e.data = .ok items := h.data ▸ sequence_of_path hpath items
  cases items with
  | nil =>
    have hrun : run node e = .ok (.single <$> placeholder node.id e) := by
      rw [run, hsequence, hempty]
      rfl
    refine ⟨_, hrun, fun supply => ?_⟩
    constructor
    case inRun =>
      intro x hx
      rw [List.mem_singleton.mp hx]
      exact h.inRun
    case total =>
      intro x hx
      rw [List.mem_singleton.mp hx]
      exact Dict.get?_insert_self ..
    case data => rfl
  | cons item items =>
    refine ⟨_, run_of_sequence hsequence (List.cons_ne_nil item items), fun supply => ?_⟩
    have hscattered := scattered_of_messages (toMessage_children node.id e (item :: items) supply)
    constructor
    case inRun =>
      intro x hx
      obtain ⟨hagent, hrun⟩ := hscattered.inRun x hx
      exact ⟨hagent.trans h.inRun.1, hrun.trans h.inRun.2⟩
    case total => exact hscattered.total
    case data => exact hscattered.data

end Split

section Nested

variable {σ : Type} {engine : Engine} {context : NodeContext}
  {reply : (request : Request) → σ → request.Reply × σ} {agentId runId : String}
  {node : NodeConfig} {lists : List (List Value)} {es : List (Envelope Value)}

open Split

variable (reply) in
/-- The level of a node that splits sequences and passes empty ones through. -/
theorem Engine.split_level (hn : engine.Splits node) (hc : context.cancelled = false)
    (hempty : node.flag? "preserve_empty" = some true)
    (hes : List.Forall₂ (Holds agentId runId) lists es) (workspace : Workspace) (s : σ) :
    let (os, later, _) := runLevel (engine.execute context reply node) es (workspace, s)
    ∃ chunks, List.Forall₂ (IsChunk agentId runId) lists chunks ∧
      os.flatMap Outcome.emitted = chunks.flatten ∧ os.filterMap Outcome.failure? = [] ∧
      later.groups = workspace.groups := by
  induction hes generalizing workspace s with
  | nil => exact ⟨[], .nil, rfl, rfl, rfl⟩
  | @cons items e lists es he _ ih =>
    obtain ⟨work, hrun, hchunk⟩ := exists_answer hn.path hempty he
    have hsplit : definition.execute context node e workspace =
        .finished { workspace with supply := (work workspace.supply).2 }
          (.ok (work workspace.supply).1) := by
      show Activity.attempt (Split.run node e) workspace = _
      rw [hrun]
      rfl
    obtain ⟨o, supply, hexec, ho⟩ := exists_execute_of_finished reply hn.provides hc hsplit s
    obtain rfl := Outcome.eq_ok_of_answer ho
    obtain ⟨chunks, hchunks, hemitted, hfailures, hgroups⟩ := ih { workspace with supply } s
    simp only [runLevel, hexec]
    refine ⟨_ :: chunks, .cons (hchunk workspace.supply) hchunks, ?_, ?_, hgroups⟩
    · rw [List.flatMap_cons, hemitted, List.flatten_cons, Outcome.emitted_ok]
    · rw [List.filterMap_cons, hfailures]
      rfl

theorem exists_of_forall₂ {α β : Type} {R : α → β → Prop} {xs : List α} {ys : List β}
    (h : List.Forall₂ R xs ys) {y : β} (hy : y ∈ ys) : ∃ x ∈ xs, R x y := by
  obtain ⟨i, hi, rfl⟩ := List.mem_iff_getElem.mp hy
  have hi' : i < xs.length := h.length_eq ▸ hi
  exact ⟨xs[i], List.getElem_mem hi', (List.forall₂_iff_get.mp h).2 i hi' hi⟩

theorem map_eq_of_forall₂ {α β γ : Type} {R : α → β → Prop} {xs : List α} {ys : List β} {f : α → γ}
    {g : β → γ} (h : List.Forall₂ R xs ys) (hR : ∀ x y, R x y → g y = f x) : ys.map g = xs.map f := by
  induction h with
  | nil => rfl
  | cons hxy _ ih => rw [List.map_cons, List.map_cons, hR _ _ hxy, ih]

/-- What comes of a chunk that is merged. It still speaks of the length of its sequence, and this is what
the next aggregating node goes by. -/
structure IsGathered (agentId runId : String) (items : List Value) (e : Envelope Value) : Prop where
  inRun : e.InRun agentId runId
  total : e.metadata.get? MetaKey.splitTotal = some (toString items.length)
  size : e.groupSize = max 1 items.length
  data : e.data = .array (pieces items)

theorem groupSize_of_total {e : Envelope Value} {n : Nat} (hn : n < UInt64.size)
    (h : e.metadata.get? MetaKey.splitTotal = some (toString n)) : e.groupSize = max 1 n := by
  have hword : Text.word? (toString n) = some n := Text.natural?_toString hn
  simp only [Envelope.groupSize, Aggregate.expected, Option.bind_some, h, hword, Option.none_or,
    Option.getD_some]

theorem Split.IsChunk.full {items : List Value} (h : IsChunk agentId runId items es)
    (hlength : items.length < UInt64.size) :
    es.head?.map Envelope.groupSize = some es.length := by
  have hes : es.length = max 1 items.length := by
    rw [← length_pieces, ← h.data, List.length_map]
  cases es with
  | nil =>
    rw [List.length_nil] at hes
    omega
  | cons e es =>
    rw [List.head?_cons, Option.map_some, groupSize_of_total hlength (h.total e (by simp)), hes]

theorem IsMerged.gathered {items : List Value} {e : Envelope Value} {nodeId : String}
    (h : IsMerged nodeId es e) (hes : IsChunk agentId runId items es)
    (hlength : items.length < UInt64.size) : IsGathered agentId runId items e := by
  obtain ⟨first, rest, rfl, he⟩ := h
  have hdata : e.data = _ := (congrArg Message.data he).trans (Aggregate.mergedMessage_data ..)
  have htrace : e.trace = _ := (congrArg Message.trace he).trans (Aggregate.mergedMessage_trace ..)
  have htotal : e.metadata.get? MetaKey.splitTotal = some (toString items.length) := by
    rw [show e.metadata = _ from congrArg Message.metadata he]
    refine Aggregate.get?_metadata_mergedMessage (by decide) fun m hm => ?_
    rw [← List.map_cons] at hm
    obtain ⟨x, hx, rfl⟩ := List.mem_map.mp hm
    exact hes.total x hx
  constructor
  case inRun =>
    rw [Envelope.InRun, htrace]
    exact hes.inRun first (by simp)
  case total => exact htotal
  case size => exact groupSize_of_total hlength htotal
  case data =>
    rw [hdata, ← hes.data, List.map_cons, List.map_map, List.map_cons]
    rfl

theorem data_of_gathered (h : List.Forall₂ (IsGathered agentId runId) lists es) :
    es.map (fun e => e.data) = lists.map fun items => .array (pieces items) :=
  map_eq_of_forall₂ h fun _ _ he => he.data

theorem totals_of_gathered (h : List.Forall₂ (IsGathered agentId runId) lists es) :
    es.map (fun e => e.metadata.get? MetaKey.splitTotal) =
      lists.map fun items => some (toString items.length) :=
  map_eq_of_forall₂ h fun _ _ he => he.total

theorem forall₂_gathered {nodeId : String} {chunks : List (List (Envelope Value))}
    (hchunks : List.Forall₂ (IsChunk agentId runId) lists chunks)
    (hlength : ∀ items ∈ lists, items.length < UInt64.size)
    (hmerged : List.Forall₂ (IsMerged nodeId) chunks es) :
    List.Forall₂ (IsGathered agentId runId) lists es := by
  induction hchunks generalizing es with
  | nil =>
    cases hmerged
    exact .nil
  | cons hhead _ ih =>
    cases hmerged with
    | cons hmerged htail =>
      exact .cons (hmerged.gathered hhead (hlength _ (by simp)))
        (ih (fun items hi => hlength items (by simp [hi])) htail)

variable (reply) in
/-- **What came of several sequences is cut into these**, and nothing is left over. -/
theorem Engine.gathered_level (hn : engine.Gathers node) (hc : context.cancelled = false)
    {chunks : List (List (Envelope Value))}
    (hchunks : List.Forall₂ (IsChunk agentId runId) lists chunks)
    (hlength : ∀ items ∈ lists, items.length < UInt64.size) (workspace : Workspace) (s : σ)
    (hidle : workspace.groups.Idle agentId runId) :
    let (os, later, _) :=
      runLevel (engine.execute context reply node) chunks.flatten (workspace, s)
    List.Forall₂ (IsGathered agentId runId) lists (os.flatMap Outcome.emitted) ∧
      os.filterMap Outcome.failure? = [] ∧ later.groups.Idle agentId runId := by
  have hrun : ∀ e ∈ chunks.flatten, e.InRun agentId runId := by
    intro e he
    obtain ⟨p, hp, he⟩ := List.mem_flatten.mp he
    obtain ⟨items, -, hitems⟩ := exists_of_forall₂ hchunks hp
    exact hitems.inRun e he
  obtain ⟨parts, rest, hcut, hfailures, hmerged, hopen⟩ :=
    cut_level reply hn hc hrun workspace s hidle
  obtain ⟨rfl, rfl⟩ := hcut.unique <| .of_full fun p hp =>
    let ⟨items, hmem, hitems⟩ := exists_of_forall₂ hchunks hp
    hitems.full (hlength items hmem)
  refine ⟨forall₂_gathered hchunks hlength hmerged, hfailures, fun nodeId => ?_⟩
  by_contra hne
  exact ((hopen nodeId).mp hne).2 rfl

/-! ## The whole run -/

/-- A run that splits a sequence of sequences twice and aggregates it twice. No group of the run is
open when it begins. -/
structure NestedRun (engine : Engine) (context : NodeContext)
    (split splitAgain gather gatherAgain : NodeConfig) (input : Envelope Value)
    (lists : List (List Value)) : Prop where
  alive : context.cancelled = false
  splits : engine.Splits split
  splitsAgain : engine.Splits splitAgain
  preserves : splitAgain.flag? "preserve_empty" = some true
  gathers : engine.Gathers gather
  gathersAgain : engine.Gathers gatherAgain
  data : input.data = .array (lists.map .array)
  nonempty : lists ≠ []
  /-- The lengths of sequences are words. -/
  length_lt : lists.length < UInt64.size ∧ ∀ items ∈ lists, items.length < UInt64.size
  idle : engine.workspace.groups.Idle input.trace.agentId input.trace.runId

/-- How a sequence of sequences comes back: in groups, and some of it is kept. -/
structure Rejoined (lists : List (List Value)) (groups : List (List (List Value)))
    (rest : List (List Value)) (result : RunResult) : Prop where
  /-- Every group is as long as its first sequence, or one if that is empty. -/
  cut : Cut (fun items => max 1 items.length) lists groups rest
  failures : result.failures = []
  outputs : (result.outputs.map fun e => e.data) =
    groups.map fun group => .array (group.map fun items => .array (pieces items))

/-- What the outer node emits for groups of what the inner one has emitted. -/
theorem data_of_merged {nodeId : String} {groups : List (List (List Value))}
    {parts : List (List (Envelope Value))}
    (hgroups : List.Forall₂ (List.Forall₂ (IsGathered agentId runId)) groups parts)
    (hmerged : List.Forall₂ (IsMerged nodeId) parts es) :
    es.map (fun e => e.data) =
      groups.map fun group => .array (group.map fun items => .array (pieces items)) := by
  induction hgroups generalizing es with
  | nil =>
    cases hmerged
    rfl
  | @cons group part groups parts hgroup _ ih =>
    cases hmerged with
    | @cons _ e _ es hhead htail =>
      obtain ⟨first, rest, rfl, he⟩ := hhead
      have hdata : e.data = .array ((first :: rest).map fun e => e.data) := by
        rw [show e.data = _ from congrArg Message.data he, Aggregate.mergedMessage_data, List.map_cons,
          List.map_map]
        rfl
      have hpart : (first :: rest).map (fun e => e.data) =
          group.map fun items => .array (pieces items) :=
        data_of_gathered hgroup
      rw [List.map_cons, ih htail, hdata, hpart, List.map_cons]

section Run

variable {split splitAgain gather gatherAgain : NodeConfig} {input : Envelope Value}

variable (reply) in
/-- The first node. -/
theorem Engine.exists_held
    (h : NestedRun engine context split splitAgain gather gatherAgain input lists) (s : σ) :
    ∃ es workspace, runLevel (engine.execute context reply split) [input] (engine.workspace, s) =
        ([.ok (.many es)], workspace, s) ∧ workspace.groups = engine.workspace.groups ∧
      List.Forall₂ (Holds input.trace.agentId input.trace.runId) lists es := by
  have hsplit : SplitRun engine context reply split [] gatherAgain input (lists.map .array) none := {
    alive := h.alive
    splits := h.splits.provides
    aggregates := h.gathersAgain.provides
    passes := nofun
    sequence := h.data ▸ sequence_of_path h.splits.path _
    nonempty := by simpa using h.nonempty
    length_lt := fun _ => by simpa using h.length_lt.1
    configured := h.gathersAgain.count
    whole := h.gathersAgain.whole
    idle := h.idle }
  obtain ⟨es, workspace, hfirst, hgroups, hmessages⟩ := exists_split hsplit s
  obtain ⟨hrun, -, -, hdata⟩ := scattered_of_messages hmessages
  refine ⟨es, workspace, hfirst, hgroups, ?_⟩
  clear hmessages hfirst hsplit h
  induction es generalizing lists with
  | nil =>
    obtain rfl := List.map_eq_nil_iff.mp hdata.symm
    exact .nil
  | cons e es ih =>
    obtain ⟨items, lists, rfl, he, hes⟩ := List.map_eq_cons_iff.mp hdata.symm
    exact .cons ⟨hrun e (by simp), he.symm⟩ (ih (fun e he => hrun e (by simp [he])) hes.symm)

variable (reply) in
/-- The first three nodes. -/
theorem Engine.exists_gathered
    (h : NestedRun engine context split splitAgain gather gatherAgain input lists) (s : σ) :
    ∃ r workspace s', runLevels ([split, splitAgain, gather].map (engine.execute context reply))
        [input] (engine.workspace, s) = (r, workspace, s') ∧ r.failures = [] ∧
      List.Forall₂ (IsGathered input.trace.agentId input.trace.runId) lists r.outputs ∧
      workspace.groups.Idle input.trace.agentId input.trace.runId := by
  obtain ⟨es, workspace, hsplit, hgroups, hheld⟩ := exists_held reply h s
  obtain ⟨chunks, hchunks, hemitted, hagain, hgroupsAgain⟩ :=
    split_level reply h.splitsAgain h.alive h.preserves hheld workspace s
  let again := runLevel (engine.execute context reply splitAgain) es (workspace, s)
  have hidle : again.2.1.groups.Idle input.trace.agentId input.trace.runId := by
    rw [hgroupsAgain, hgroups]
    exact h.idle
  obtain ⟨hgathered, hfailures, hstill⟩ := gathered_level reply h.gathers h.alive hchunks
    h.length_lt.2 again.2.1 again.2.2 hidle
  let last := runLevel (engine.execute context reply gather) chunks.flatten again.2
  have hrun : runLevels ([split, splitAgain, gather].map (engine.execute context reply)) [input]
      (engine.workspace, s) = (levelResult [.ok (.many es)] ++ (levelResult again.1 ++
        (levelResult last.1 ++ .ofOutputs (last.1.flatMap Outcome.emitted))), last.2) := by
    rw [List.map_cons, runLevels_of_many hsplit]
    simp only [List.map_cons, List.map_nil, runLevels, hemitted]
    rfl
  refine ⟨_, _, _, hrun, ?_, hgathered, hstill⟩
  show [] ++ (again.1.filterMap Outcome.failure? ++ (last.1.filterMap Outcome.failure? ++ [])) = []
  rw [hagain, hfailures]
  rfl

variable (reply) in
/-- What comes back, and what is kept. -/
theorem Engine.exists_rejoined
    (h : NestedRun engine context split splitAgain gather gatherAgain input lists) (s : σ) :
    let inner := (engine.run context reply [split, splitAgain, gather] input s).1
    let (result, later, _) :=
      engine.run context reply [split, splitAgain, gather, gatherAgain] input s
    inner.failures = [] ∧
      (inner.outputs.map fun e => e.data) = lists.map (fun items => .array (pieces items)) ∧
      inner.outputs.map (fun e => e.metadata.get? MetaKey.splitTotal) =
        lists.map (fun items => some (toString items.length)) ∧
      ∃ groups rest, Rejoined lists groups rest result ∧
        ∀ nodeId, later.workspace.groups.items
            ⟨input.trace.agentId, input.trace.runId, nodeId⟩ ≠ [] ↔
          nodeId = gatherAgain.id ∧ rest ≠ [] := by
  obtain ⟨r, workspace, s', hrun, hfailures, hgathered, hidle⟩ :=
    exists_gathered reply h s
  have hinner : ∀ e ∈ r.outputs, e.InRun input.trace.agentId input.trace.runId := by
    intro e he
    obtain ⟨items, -, hitems⟩ := exists_of_forall₂ hgathered he
    exact hitems.inRun
  obtain ⟨parts, rest, hcut, hlast, hmerged, hopen⟩ :=
    cut_level reply h.gathersAgain h.alive hinner workspace s' hidle
  obtain ⟨groups, restOf, hcutOf, hgroups, hrest⟩ := hcut.transfer
    (fun items : List Value => max 1 items.length) (fun items e he => he.size.symm) hgathered
  have hrest' : rest ≠ [] ↔ restOf ≠ [] := by
    rw [← List.length_pos_iff, ← List.length_pos_iff, hrest.length_eq]
  let last := runLevel (engine.execute context reply gatherAgain) r.outputs (workspace, s')
  have hall : runLevels ([split, splitAgain, gather, gatherAgain].map
      (engine.execute context reply)) [input] (engine.workspace, s) =
        (r.withoutOutputs ++
          (levelResult last.1 ++ .ofOutputs (last.1.flatMap Outcome.emitted)), last.2) := by
    rw [show [split, splitAgain, gather, gatherAgain] = [split, splitAgain, gather] ++ [gatherAgain]
      from rfl, List.map_append, runLevels_append, hrun]
    rfl
  simp only [run_eq, hrun, hall]
  refine ⟨hfailures, data_of_gathered hgathered, totals_of_gathered hgathered, groups, restOf, ⟨hcutOf, ?_, ?_⟩, fun nodeId => ?_⟩
  · show r.failures ++ (last.1.filterMap Outcome.failure? ++ []) = []
    rw [hfailures, hlast]
    rfl
  · exact data_of_merged hgroups hmerged
  · rw [hopen nodeId, hrest']

/-- The original comes back at once exactly if the sizes are right. -/
theorem Rejoined.whole_iff {groups : List (List (List Value))} {rest : List (List Value)}
    {result : RunResult} (h : Rejoined lists groups rest result) (hne : lists ≠ []) :
    ((∃ e, result.outputs = [e] ∧ e.data = .array (lists.map .array)) ∧ rest = []) ↔
      (∀ items ∈ lists, items ≠ []) ∧ lists.head?.map List.length = some lists.length := by
  constructor
  · rintro ⟨⟨e, he, hdata⟩, rfl⟩
    have houtputs := h.outputs
    rw [he, List.map_singleton, hdata] at houtputs
    obtain ⟨group, hgroups, hgroup⟩ := List.map_eq_singleton_iff.mp houtputs.symm
    subst hgroups
    have hlists : lists = group := by
      rw [h.cut.all, List.flatten_singleton, List.append_nil]
    subst hlists
    have hfull : ∀ items ∈ lists, items ≠ [] := by
      intro items hitems
      rw [← pieces_eq_self_iff]
      exact Value.array.inj (List.map_inj_left.mp (Value.array.inj hgroup) items hitems)
    refine ⟨hfull, ?_⟩
    have hsize := h.cut.full lists (by simp)
    cases lists with
    | nil => exact absurd rfl hne
    | cons items lists =>
      have hpos := List.length_pos_iff.mpr (hfull items (by simp))
      rwa [List.head?_cons, Option.map_some, Nat.max_eq_right hpos] at hsize
  · rintro ⟨hfull, hsize⟩
    have hcut : Cut (fun items : List Value => max 1 items.length) lists [lists] [] := by
      refine ⟨by simp, fun p hp => ?_, nofun⟩
      rw [List.mem_singleton.mp hp]
      cases lists with
      | nil => exact absurd rfl hne
      | cons items lists =>
        have hpos := List.length_pos_iff.mpr (hfull items (by simp))
        rwa [List.head?_cons, Option.map_some, Nat.max_eq_right hpos]
    obtain ⟨rfl, rfl⟩ := h.cut.unique hcut
    obtain ⟨e, he, hdata⟩ := List.map_eq_singleton_iff.mp h.outputs
    refine ⟨⟨e, he, hdata.trans (congrArg Value.array (List.map_congr_left fun items hitems => ?_))⟩,
      rfl⟩
    rw [(pieces_eq_self_iff items).mpr (hfull items hitems)]

variable (reply) in
/-- **What comes back of a sequence of sequences.** Nothing fails. The inner aggregating node emits
one envelope per inner sequence, which holds it, or holds it in brackets if it is empty, and which still
speaks of its length. The outer one goes by that: it cuts them into groups each of which is as long as its
first inner sequence, and keeps what is too short for that. So the original comes back in one piece, with no
group left open, exactly if no inner sequence is empty and the first one is as long as the outer sequence. -/
theorem Engine.run_nested
    (h : NestedRun engine context split splitAgain gather gatherAgain input lists) (s : σ) :
    let inner := (engine.run context reply [split, splitAgain, gather] input s).1
    let (result, later, _) :=
      engine.run context reply [split, splitAgain, gather, gatherAgain] input s
    inner.failures = [] ∧
      (inner.outputs.map fun e => e.data) = lists.map (fun items => .array (pieces items)) ∧
      inner.outputs.map (fun e => e.metadata.get? MetaKey.splitTotal) =
        lists.map (fun items => some (toString items.length)) ∧
      (∃ groups rest, Rejoined lists groups rest result ∧
        ∀ nodeId, later.workspace.groups.items
            ⟨input.trace.agentId, input.trace.runId, nodeId⟩ ≠ [] ↔
          nodeId = gatherAgain.id ∧ rest ≠ []) ∧
      (((∃ e, result.outputs = [e] ∧ e.data = input.data) ∧
          later.workspace.groups.Idle input.trace.agentId input.trace.runId) ↔
        (∀ items ∈ lists, items ≠ []) ∧ lists.head?.map List.length = some lists.length) := by
  obtain ⟨hfailures, hdata, htotals, groups, rest, hrejoined, hopen⟩ := exists_rejoined reply h s
  refine ⟨hfailures, hdata, htotals, ⟨groups, rest, hrejoined, hopen⟩, ?_⟩
  rw [← hrejoined.whole_iff h.nonempty, h.data]
  refine and_congr_right fun _ => ⟨fun hidle => ?_, fun hrest nodeId => ?_⟩
  · by_contra hrest
    exact (hopen gatherAgain.id).mpr ⟨rfl, hrest⟩ (hidle gatherAgain.id)
  · by_contra hne
    exact ((hopen nodeId).mp hne).2 hrest

end Run

end Nested

/-! ### Runs to try things on -/

/-- Splits a sequence, even if it is empty. -/
def splitAgainNode : NodeConfig :=
  { id := "again", nodeType := "flow.split", config := .ofList [("preserve_empty", .bool true)] }

/-- Gathers what was split last. -/
def gatherNode : NodeConfig := { id := "gather", nodeType := "flow.aggregate" }

/-- Gathers what was gathered. -/
def gatherAgainNode : NodeConfig := { id := "gather-again", nodeType := "flow.aggregate" }

/-- A sequence of sequences of texts. -/
def textLists (lists : List (List String)) : List (List Value) := lists.map (List.map .string)

/-- An envelope that holds a sequence of sequences. -/
def listsEnvelope (lists : List (List Value)) : Envelope Value :=
  sampleEnvelope 0 (.array (lists.map .array))

/-- What comes of it. -/
def runLists (lists : List (List Value)) : RunResult × Engine × Exchange :=
  freshEngine.run (freshEngine.context "orders" "run-1") (Offline.reply default)
    [splitNode, splitAgainNode, gatherNode, gatherAgainNode] (listsEnvelope lists) (.new {})

theorem nestedRun_lists (lists : List (List Value)) (hne : lists ≠ [])
    (hlength : lists.length < UInt64.size ∧ ∀ items ∈ lists, items.length < UInt64.size) :
    NestedRun freshEngine (freshEngine.context "orders" "run-1") splitNode splitAgainNode gatherNode
      gatherAgainNode (listsEnvelope lists) lists where
  alive := rfl
  splits := ⟨rfl, rfl⟩
  splitsAgain := ⟨rfl, rfl⟩
  preserves := rfl
  gathers := ⟨rfl, rfl, nofun⟩
  gathersAgain := ⟨rfl, rfl, nofun⟩
  data := rfl
  nonempty := hne
  length_lt := hlength
  idle _ := rfl

/-- Inner sequences of different lengths, the first of which is as long as the outer one. -/
theorem Engine.run_nested_uneven :
    let lists := textLists [["a", "b", "c"], ["d"], ["e", "f"]]
    NestedRun freshEngine (freshEngine.context "orders" "run-1") splitNode splitAgainNode gatherNode
        gatherAgainNode (listsEnvelope lists) lists ∧
      ∃ e, (runLists lists).1.outputs = [e] ∧ e.data = (listsEnvelope lists).data := by
  have hrun := nestedRun_lists (textLists [["a", "b", "c"], ["d"], ["e", "f"]]) nofun (by decide)
  obtain ⟨-, -, -, -, hwhole⟩ :=
    Engine.run_nested (Offline.reply default) hrun (Exchange.new {})
  exact ⟨hrun, (hwhole.mpr ⟨by simp [textLists], rfl⟩).1⟩

/-- What comes of a sequence that was cut by hand. -/
theorem runLists_of_cut {lists rest : List (List Value)} {groups : List (List (List Value))}
    (h : NestedRun freshEngine (freshEngine.context "orders" "run-1") splitNode splitAgainNode
      gatherNode gatherAgainNode (listsEnvelope lists) lists)
    (hcut : Cut (fun items => max 1 items.length) lists groups rest) :
    ((runLists lists).1.outputs.map fun e => e.data) =
        groups.map (fun group => .array (group.map fun items => .array (Split.pieces items))) ∧
      ((runLists lists).2.1.workspace.groups.items ⟨"orders", "run-1", "gather-again"⟩ ≠ [] ↔
        rest ≠ []) := by
  obtain ⟨-, -, -, groups', rest', hrejoined, hopen⟩ :=
    Engine.exists_rejoined (Offline.reply default) h (Exchange.new {})
  obtain ⟨rfl, rfl⟩ := hrejoined.cut.unique hcut
  exact ⟨hrejoined.outputs, (hopen "gather-again").trans (and_iff_right rfl)⟩

/-- Of two inner sequences, the first of which is too short, that one comes back by itself, and the
other one is kept. An empty inner sequence comes back in brackets. -/
theorem Engine.run_nested_short :
    let lists := textLists [["a"], ["b", "c"]]
    (NestedRun freshEngine (freshEngine.context "orders" "run-1") splitNode splitAgainNode gatherNode
        gatherAgainNode (listsEnvelope lists) lists ∧
      ((runLists lists).1.outputs.map fun e => e.data) = [.array [.array [.string "a"]]] ∧
      (runLists lists).2.1.workspace.groups.items ⟨"orders", "run-1", "gather-again"⟩ ≠ [] ∧
      ¬ ∃ e, (runLists lists).1.outputs = [e] ∧ e.data = (listsEnvelope lists).data) ∧
    NestedRun freshEngine (freshEngine.context "orders" "run-1") splitNode splitAgainNode gatherNode
        gatherAgainNode (listsEnvelope [[]]) [[]] ∧
      ((runLists [[]]).1.outputs.map fun e => e.data) = [.array [.array [.array []]]] := by
  intro lists
  have hshort := nestedRun_lists lists nofun (by decide)
  have hempty := nestedRun_lists [[]] nofun (by decide)
  have hcut : Cut (fun items : List Value => max 1 items.length) lists [textLists [["a"]]]
      (textLists [["b", "c"]]) := by
    constructor <;> simp [lists, textLists]
  have hcutEmpty : Cut (fun items : List Value => max 1 items.length) [[]] [[[]]] [] := by
    constructor <;> simp
  obtain ⟨houtputs, hkept⟩ := runLists_of_cut hshort hcut
  refine ⟨⟨hshort, houtputs, hkept.mpr nofun, ?_⟩, hempty, (runLists_of_cut hempty hcutEmpty).1⟩
  rintro ⟨e, he, hdata⟩
  rw [he, List.map_singleton, hdata] at houtputs
  cases houtputs

end FlowEngine
