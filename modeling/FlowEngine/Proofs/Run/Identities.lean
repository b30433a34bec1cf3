import FlowEngine.Proofs.Run.Carried
import Mathlib.Data.Multiset.AddSub

/-!
# Every envelope has its own identity

Identities come from one supply, which gives them out in turn. Envelopes that a run holds are in line,
passing a node, among the results, or waiting in a group, and they move between these places; nodes
emit one envelope, many or none for one that they were given, and keep copies that come back much
later as part of another one. That no two of all these share an identity is not a property of any one
place, and it is not kept by any one step on its own either, unless it is known what the supply can
still give out.

So identities are counted. Whatever an activity does between two moments, the identities that groups
hold afterwards and those of what it has made are, with their multiplicities, among those that groups
held before and those that the supply has given out meanwhile. Counts of this form add up over
suspensions, over sequences, and over the steps of a run, so it is enough to know them of what each
node does. A registry hands over what its nodes answer as it is, so every branch in which a node
answers has to have derived, forwarded or copied the envelopes in its answer: a node that gave back
what it was given, or what lies in a group, would not have such a count.

## Main definitions

* `Supply.issued`: the identities that are given out between two moments.
* `Issuing.Issues`: the count, of work that draws on the supply.
* `Workspace.Renews`, `Turn.Renews`, `Activity.Renews`: the count, of the workspace and of activities.
* `NodeDefinition.Renews`: the count, of node types.
* `SharedRun.ids`: the identities of all envelopes that a run and the groups hold.
* `SharedRun.Introduced`: what an execution has made was new.

## Main results

* `renews_standard`, `Registry.renews_execute`: nodes and executions.
* `SharedRun.Step.renewed`, `SharedRun.Reaches.renewed`: steps and runs.
* `SharedRun.identities_distinct`: no identity is there twice, and what is emitted was never there.
-/

namespace FlowEngine

/-! ## Identities -/

/-- The identities of envelopes. -/
def Envelope.ids (es : List (Envelope Value)) : Multiset Uuid := (es.map Envelope.id : List Uuid)

namespace Envelope

@[simp] theorem ids_nil : ids [] = 0 := rfl

@[simp] theorem ids_singleton (e : Envelope Value) : ids [e] = {e.id} := rfl

@[simp] theorem ids_cons (e : Envelope Value) (es : List (Envelope Value)) :
    ids (e :: es) = {e.id} + ids es := rfl

@[simp] theorem ids_append (es es' : List (Envelope Value)) : ids (es ++ es') = ids es + ids es' := by
  rw [ids, List.map_append, ← Multiset.coe_add]
  rfl

theorem mem_ids {e : Envelope Value} {es : List (Envelope Value)} (h : e ∈ es) : e.id ∈ ids es :=
  List.mem_map_of_mem h

end Envelope

/-- The identities that a supply gives out while the number of the next one grows. -/
def Supply.issued (first last : Nat) : Multiset Uuid :=
  ((List.range' first (last - first)).map Uuid.ofNat : List Uuid)

namespace Supply

@[simp] theorem issued_self (n : Nat) : issued n n = 0 := by
  rw [issued, Nat.sub_self]
  rfl

theorem issued_succ (n : Nat) : issued n (n + 1) = {Uuid.ofNat n} := by
  rw [issued, Nat.add_sub_cancel_left]
  rfl

theorem issued_add_issued {a b c : Nat} (h : a ≤ b) (h' : b ≤ c) :
    issued a b + issued b c = issued a c := by
  obtain ⟨m, rfl⟩ := Nat.exists_eq_add_of_le h
  obtain ⟨n, rfl⟩ := Nat.exists_eq_add_of_le h'
  have hlength : a + m + n - a = m + n := by omega
  rw [issued, issued, issued, Multiset.coe_add, ← List.map_append, Nat.add_sub_cancel_left,
    Nat.add_sub_cancel_left, hlength, List.range'_append_1]

theorem issued_le {a b c : Nat} (h : a ≤ b) (h' : b ≤ c) : issued a b ≤ issued a c := by
  rw [← issued_add_issued h h']
  exact Multiset.le_add_right _ _

end Supply

/-! ## Issuing -/

/-- Work that draws on the supply. What it has in the end, for which `made` counts the identities, has those
of what it began with and of what the supply has given out meanwhile, and none of them more often. -/
def Issuing.Issues {α : Type} (held : Multiset Uuid) (made : α → Multiset Uuid) (work : Issuing α) : Prop :=
  ∀ supply, supply.next ≤ (work supply).2.next ∧
    made (work supply).1 ≤ held + Supply.issued supply.next (work supply).2.next

namespace Issuing

variable {α β : Type} {held : Multiset Uuid} {made : α → Multiset Uuid} {made' : β → Multiset Uuid}
  {work : Issuing α}

theorem issues_pure {a : α} (h : made a ≤ held) : (pure a : Issuing α).Issues held made :=
  fun _ => ⟨Nat.le_refl _, h.trans (Multiset.le_add_right _ _)⟩

theorem issues_now : now.Issues held fun _ => held :=
  fun _ => ⟨Nat.le_refl _, Multiset.le_add_right _ _⟩

namespace Issues

/-- What is only kept meanwhile. -/
theorem frame (h : work.Issues 0 made) (held : Multiset Uuid) : work.Issues held fun a => held + made a := by
  intro supply
  obtain ⟨hle, hmade⟩ := h supply
  rw [zero_add] at hmade
  exact ⟨hle, add_le_add_right hmade held⟩

theorem bind {next : α → Issuing β} (h : work.Issues held made)
    (hnext : ∀ a, (next a).Issues (made a) made') : (work >>= next).Issues held made' := by
  intro supply
  obtain ⟨hfirst, hmade⟩ := h supply
  obtain ⟨hsecond, hrest⟩ := hnext (work supply).1 (work supply).2
  refine ⟨hfirst.trans hsecond, hrest.trans ?_⟩
  rw [bind_apply, ← Supply.issued_add_issued hfirst hsecond, ← add_assoc]
  exact add_le_add_left hmade _

theorem map {f : α → β} (h : work.Issues held fun a => made' (f a)) : (f <$> work).Issues held made' := h

/-- An envelope that says something else afterwards is still the same one. -/
theorem amend {work : Issuing (Envelope Value)} {f : Envelope Value → Envelope Value}
    (h : work.Issues 0 fun e => {e.id}) (hid : ∀ e, (f e).id = e.id) :
    (work >>= fun e => pure (f e)).Issues 0 fun e => {e.id} :=
  h.bind fun e => issues_pure (congrArg singleton (hid e)).le

end Issues

/-- An envelope for every item. -/
theorem issues_each {f : α → Issuing (Envelope Value)} (h : ∀ a, (f a).Issues 0 fun e => {e.id})
    (as : List α) : (each f as).Issues 0 Envelope.ids := by
  induction as with
  | nil => exact issues_pure (le_refl _)
  | cons a as ih =>
    exact (h a).bind fun e => (ih.frame {e.id}).bind fun es => issues_pure (le_refl _)

end Issuing

section Issued

variable {α β : Type} [HasDataType β]

/-- A message is sealed with a new identity. -/
theorem Message.issues_seal (m : Message α) : m.seal.Issues 0 fun e => {e.id} :=
  fun supply => ⟨Nat.le_succ _, (Supply.issued_succ supply.next).ge.trans (Multiset.le_add_left _ _)⟩

theorem Envelope.issues_derive (e : Envelope α) (data : β) (trace : Trace) :
    (e.derive data trace).Issues 0 fun e' => {e'.id} :=
  Message.issues_seal _

theorem Envelope.issues_forward (e : Envelope α) (nodeId : String) (data : β) :
    (e.forward nodeId data).Issues 0 fun e' => {e'.id} :=
  Message.issues_seal _

end Issued

/-! ## Groups -/

/-- The identities of all envelopes in groups. -/
def Groups.ids (g : Groups) : Multiset Uuid := Envelope.ids (g.entries.flatMap Prod.snd)

namespace Groups

theorem ids_cons (x : GroupKey × List (Envelope Value)) (entries : List (GroupKey × List (Envelope Value))) :
    ids ⟨x :: entries⟩ = Envelope.ids x.2 + ids ⟨entries⟩ :=
  Envelope.ids_append x.2 _

/-- What a group holds is taken out when it is closed. -/
theorem ids_items_add_ids_close (g : Groups) (key : GroupKey) :
    Envelope.ids (g.items key) + (g.close key).ids ≤ g.ids := by
  obtain ⟨entries⟩ := g
  induction entries with
  | nil => exact le_refl _
  | cons x entries ih =>
    obtain ⟨k, es⟩ := x
    by_cases h : k = key
    · have hitems : items ⟨(k, es) :: entries⟩ key = es := by simp [items, h]
      have hclose : close ⟨(k, es) :: entries⟩ key = close ⟨entries⟩ key := by simp [close, h]
      rw [hitems, hclose, ids_cons]
      exact add_le_add_right ((Multiset.le_add_left _ _).trans ih) _
    · have hitems : items ⟨(k, es) :: entries⟩ key = items ⟨entries⟩ key := by
        simp [items, List.lookup_cons, beq_eq_false_iff_ne.mpr (Ne.symm h)]
      have hclose : close ⟨(k, es) :: entries⟩ key = ⟨(k, es) :: (close ⟨entries⟩ key).entries⟩ := by
        simp [close, h]
      rw [hitems, hclose, ids_cons, ids_cons, add_left_comm]
      exact add_le_add_right ih _

theorem ids_close_le (g : Groups) (key : GroupKey) : (g.close key).ids ≤ g.ids :=
  (Multiset.le_add_left _ _).trans (g.ids_items_add_ids_close key)

theorem ids_add_le (g : Groups) (key : GroupKey) (e : Envelope Value) :
    (g.add key e).ids ≤ g.ids + {e.id} := by
  rw [add, ids_cons, Envelope.ids_append, Envelope.ids_singleton, add_right_comm]
  exact add_le_add_left (g.ids_items_add_ids_close key) _

end Groups

/-! ## Activities -/

/-- What has been done between two moments, and what has been made: no identity is in use, or has been
made, that was not in use before or has been given out meanwhile, nor more often than that. -/
structure Workspace.Renews (before after : Workspace) (made : Multiset Uuid) : Prop where
  next_le : before.supply.next ≤ after.supply.next
  held : after.groups.ids + made ≤
    before.groups.ids + Supply.issued before.supply.next after.supply.next
  made : made ≤ Supply.issued before.supply.next after.supply.next

namespace Workspace.Renews

variable {w w' w'' : Workspace} {made made' : Multiset Uuid}

theorem refl (w : Workspace) : w.Renews w 0 where
  next_le := Nat.le_refl _
  held := by simp
  made := by simp

theorem trans (h : w.Renews w' made) (h' : w'.Renews w'' made') : w.Renews w'' (made + made') where
  next_le := h.next_le.trans h'.next_le
  held := by
    rw [← Supply.issued_add_issued h.next_le h'.next_le]
    calc w''.groups.ids + (made + made')
        = w''.groups.ids + made' + made := by abel
      _ ≤ w'.groups.ids + Supply.issued w'.supply.next w''.supply.next + made :=
        add_le_add_left h'.held made
      _ = w'.groups.ids + made + Supply.issued w'.supply.next w''.supply.next := by abel
      _ ≤ _ := by
        rw [← add_assoc]
        exact add_le_add_left h.held _
  made := by
    rw [← Supply.issued_add_issued h.next_le h'.next_le]
    exact add_le_add h.made h'.made

/-- What others have made meanwhile is of no concern. -/
theorem mono (h : w.Renews w' made) (hle : made' ≤ made) : w.Renews w' made' where
  next_le := h.next_le
  held := (add_le_add_right hle _).trans h.held
  made := hle.trans h.made

/-- The supply has been drawn on, and the groups are as they were. -/
theorem of_issues {α : Type} {made : α → Multiset Uuid} {work : Issuing α} (h : work.Issues 0 made)
    (w : Workspace) : w.Renews { w with supply := (work w.supply).2 } (made (work w.supply).1) := by
  obtain ⟨hle, hmade⟩ := h w.supply
  rw [zero_add] at hmade
  exact ⟨hle, add_le_add_right hmade _, hmade⟩

end Workspace.Renews

/-- Whenever the activity goes on, and up to when it stops again, no identity comes up but of the supply.
In between others may do what they like. -/
def Turn.Renews {α : Type} (made : α → Multiset Uuid) : Workspace → Turn α → Prop
  | before, .finished after a => before.Renews after (made a)
  | before, .waiting after request resume =>
    before.Renews after 0 ∧ ∀ (reply : request.Reply) later, (resume reply later).Renews made later

/-- The same of an activity that has not begun. -/
def Activity.Renews {α : Type} (made : α → Multiset Uuid) (activity : Activity α) : Prop :=
  ∀ state, (activity state).Renews made state

section Renews

variable {α β : Type} {made : α → Multiset Uuid} {made' : β → Multiset Uuid} {w w' : Workspace}

theorem Turn.Renews.of_renews (h : w.Renews w' 0) {t : Turn α} (ht : t.Renews made w') : t.Renews made w := by
  cases t with
  | finished state a =>
    have htrans := h.trans ht
    rwa [zero_add] at htrans
  | waiting state request resume =>
    have htrans := h.trans ht.1
    exact ⟨by rwa [zero_add] at htrans, ht.2⟩

/-- One activity after another. The second one begins with what the first one has made. -/
theorem Turn.Renews.andThen {t : Turn α} {next : α → Activity β} (h : t.Renews made w)
    (hnext : ∀ a w w', w.Renews w' (made a) → (next a w').Renews made' w) :
    (t.andThen next).Renews made' w := by
  induction t generalizing w with
  | finished state a => exact hnext a w state h
  | waiting state request resume ih =>
    exact ⟨h.1, fun reply later => ih reply later (h.2 reply later)⟩

/-- What the first one has made is not used later. -/
theorem Activity.Renews.bind {activity : Activity α} {next : α → Activity β}
    (h : activity.Renews made) (hnext : ∀ a, (next a).Renews made') : (activity >>= next).Renews made' :=
  fun state => (h state).andThen fun a _ w' hw => .of_renews (hw.mono (Multiset.zero_le _)) (hnext a w')

/-- The second one only puts together what the first one has made. -/
theorem Activity.Renews.map {activity : Activity α} {f : α → β}
    (h : activity.Renews fun a => made' (f a)) : (activity >>= fun a => pure (f a)).Renews made' :=
  fun state => (h state).andThen fun _ _ _ hw => hw

theorem Activity.renews_ask (request : Request) : (Activity.ask request).Renews fun _ => 0 :=
  fun state => ⟨.refl state, fun _ later => .refl later⟩

theorem Activity.renews_issue {work : Issuing α} (h : work.Issues 0 made) : (Activity.issue work).Renews made :=
  fun state => .of_issues h state

end Renews

/-! ## Nodes -/

/-- The identities of what has been made, unless it is an error. -/
def idsIfAny {ε α : Type} (made : α → Multiset Uuid) : Except ε α → Multiset Uuid
  | .ok a => made a
  | .error _ => 0

/-- The identities of the envelopes in an output. -/
def NodeOutput.ids (output : NodeOutput) : Multiset Uuid := Envelope.ids output.envelopes

/-- A node type answers with new envelopes, whatever it was given, and keeps only copies with new
identities. -/
def NodeDefinition.Renews (definition : NodeDefinition) : Prop :=
  ∀ context node e, (definition.execute context node e).Renews (idsIfAny NodeOutput.ids)

section Nodes

variable {α : Type} {made : α → Multiset Uuid}

theorem renews_error {ε : Type} (error : ε) :
    (pure (.error error) : Activity (Except ε α)).Renews (idsIfAny made) :=
  fun state => .refl state

theorem renews_attempt {ε : Type} {checked : Except ε (Issuing α)}
    (h : Gives checked fun work => work.Issues 0 made) :
    (Activity.attempt checked).Renews (idsIfAny made) := by
  cases checked with
  | error error => exact renews_error error
  | ok work => exact (Activity.renews_issue (h work rfl)).map

/-- An answer of one envelope. -/
theorem renews_emit {work : Issuing (Envelope Value)} (h : work.Issues 0 fun e => {e.id}) :
    (Activity.emit work).Renews (idsIfAny NodeOutput.ids) :=
  (Activity.renews_issue h).map

/-- Node types that answer at once. -/
theorem renews_simple {info : NodeTypeMeta}
    {run : NodeConfig → Envelope Value → Except NodeError (Issuing NodeOutput)}
    (h : ∀ node e, Gives (run node e) fun work => work.Issues 0 NodeOutput.ids) :
    (NodeDefinition.simple info run).Renews :=
  fun _ node e => renews_attempt (h node e)

theorem renews_log : DebugLog.definition.Renews :=
  renews_simple fun node e => .of_ok (e.issues_forward node.id e.data).map

theorem Split.issues_child (nodeId : String) (input : Envelope Value) (total index : Nat) (item : Value) :
    (child nodeId input total index item).Issues 0 fun e => {e.id} :=
  (input.issues_derive item _).amend fun _ => rfl

theorem Split.issues_children (nodeId : String) (input : Envelope Value) (items : List Value) :
    (children nodeId input items).Issues 0 Envelope.ids :=
  Issuing.issues_each (fun (item, index) => issues_child nodeId input items.length index item) items.zipIdx

theorem Split.issues_placeholder (nodeId : String) (input : Envelope Value) :
    (placeholder nodeId input).Issues 0 fun e => {e.id} :=
  (input.issues_forward nodeId _).amend fun _ => rfl

theorem renews_split : Split.definition.Renews := by
  refine renews_simple fun node e => .skip fun items => ?_
  split
  · split
    · exact .of_ok (Split.issues_placeholder node.id e).map
    · exact .of_error _
  · exact .of_ok (Split.issues_children node.id e items).map

theorem Batch.issues_window (size total : Nat) (items : List Value) (input : Envelope Value) (index : Nat)
    (trace : Trace) : (window size total items input index trace).Issues 0 fun e => {e.id} :=
  (input.issues_derive _ trace).amend fun _ => rfl

theorem renews_batch : Batch.definition.Renews := by
  refine renews_simple fun node e => .skip fun size => .skip fun items => ?_
  -- Whether all windows are asked for, whether there are any items, and whether there is such a window.
  split
  · split
    · exact .of_error _
    · refine .of_ok (Issuing.issues_each (fun index => ?_) _).map
      exact Batch.issues_window size _ items e index ((e.trace.next node.id).child node.id index)
  · split
    · exact .of_error _
    · refine .skip fun configured => ?_
      dsimp only
      split
      · exact .of_ok (Batch.issues_window size _ items e _ (e.trace.next node.id)).map
      · exact .of_error _

/-- The adapter of typed nodes issues an envelope for the node, and another one from what the node gives
back. -/
theorem renews_typed {ι ο : Type} [Payload ι] [Payload ο] {typed : TypedNode ι ο}
    {made : Except NodeError (Envelope ο) → Multiset Uuid}
    (h : ∀ context node e, (typed.execute context node e).Renews made) : typed.definition.Renews := by
  intro context node e
  have haccept : Gives (@TypedNode.accept ι _ e) fun work => work.Issues 0 fun e' => {e'.id} :=
    .map fun data _ => e.issues_derive data e.trace
  refine (renews_attempt haccept).bind fun accepted => ?_
  cases accepted with
  | error error => exact renews_error error
  | ok accepted =>
    refine (h context node accepted).bind fun output => ?_
    cases output with
    | error error => exact renews_error error
    | ok output => exact renews_emit (output.issues_derive _ _)

theorem TypedNode.Forwards.renews {ι ο : Type} [Payload ι] [Payload ο] {typed : TypedNode ι ο}
    {answer : NodeConfig → ι → Except NodeError ο} (h : typed.Forwards answer) : typed.definition.Renews := by
  have hexec (context : NodeContext) (node : NodeConfig) (e : Envelope ι) :
      (typed.execute context node e).Renews (idsIfAny fun e' => {e'.id}) := by
    rw [h context node e]
    exact renews_attempt (.map fun data _ => e.issues_forward node.id data)
  exact renews_typed hexec

theorem renews_http : HttpNode.definition.Renews := by
  intro context node e
  simp only [HttpNode.definition, HttpNode.execute]
  split
  · exact renews_error _
  · refine (Activity.renews_ask _).bind fun reply => ?_
    cases reply with
    | error error => exact renews_error _
    | ok response => exact renews_emit (e.issues_forward node.id _)

theorem CallNode.issues_conclude (node : NodeConfig) (input : Envelope Value) (response : CallResponse) :
    (conclude node input response).Issues 0 fun e => {e.id} := by
  rw [conclude]
  cases response.status with
  | sent => exact (input.issues_forward node.id _).amend fun _ => rfl
  | completed => exact (input.issues_forward node.id _).bind fun _ => Issuing.issues_pure (le_refl _)

theorem renews_call : CallNode.definition.Renews := by
  intro context node e
  simp only [CallNode.definition, CallNode.execute]
  split
  · exact renews_error _
  · refine (Activity.renews_ask _).bind fun reply => ?_
    cases reply with
    | error error => exact renews_error _
    | ok response => exact renews_emit (CallNode.issues_conclude node e response)

theorem renews_return : ReturnNode.definition.Renews := by
  intro context node e
  simp only [ReturnNode.definition, ReturnNode.execute]
  split
  · exact renews_error _
  · refine (Activity.renews_ask _).bind fun reply => ?_
    cases reply with
    | error error => exact renews_error _
    | ok delivery =>
      exact renews_emit ((e.issues_forward node.id e.data).amend fun _ => rfl)

/-- A copy of the input has been put into a group, with an identity of its own, and the group may have
been closed. -/
theorem Workspace.Renews.of_copied {state : Workspace} {key : GroupKey} {input : Envelope Value} {g : Groups}
    (h : g.ids ≤ (state.groups.add key (input.copy state.supply).1).ids) :
    state.Renews { state with supply := (input.copy state.supply).2, groups := g } 0 where
  next_le := Nat.le_succ _
  held := by
    change g.ids + 0 ≤ state.groups.ids + Supply.issued state.supply.next (state.supply.next + 1)
    rw [add_zero, Supply.issued_succ]
    exact h.trans (state.groups.ids_add_le key _)
  made := Multiset.zero_le _

theorem Aggregate.issues_merge (nodeId : String) (first : Envelope Value) (rest : List (Envelope Value)) :
    (merge nodeId first rest).Issues 0 fun e => {e.id} :=
  (first.issues_forward nodeId _).amend fun _ => rfl

theorem renews_collect (node : NodeConfig) (input : Envelope Value) (configured : Option Nat)
    (partialResults : Bool) (state : Workspace) :
    state.Renews (Aggregate.collect node input configured partialResults state).2
      (Envelope.ids (Aggregate.collect node input configured partialResults state).1.envelopes) := by
  simp only [Aggregate.collect]
  split
  · exact .of_copied (le_refl _)
  · split
    · exact .of_copied (Groups.ids_close_le _ _)
    · rename_i first rest _
      have hcopied := Workspace.Renews.of_copied (Groups.ids_close_le
        (state.groups.add (Aggregate.key node.id input.trace) (input.copy state.supply).1)
        (Aggregate.key node.id input.trace))
      have hmerged := hcopied.trans (.of_issues (Aggregate.issues_merge node.id first rest) _)
      rwa [zero_add] at hmerged

theorem renews_aggregate : Aggregate.definition.Renews := by
  intro context node e state
  change state.Renews (Aggregate.run node e state).2 (idsIfAny NodeOutput.ids (Aggregate.run node e state).1)
  rw [Aggregate.run]
  split
  · exact .refl state
  · exact renews_collect node e _ _ state

end Nodes

/-- **The standard nodes** answer with new envelopes. -/
theorem renews_standard : ∀ registration ∈ standardNodes, registration.definition.Renews := by
  simp only [standardNodes, List.forall_mem_cons, List.not_mem_nil, false_implies, implies_true]
  exact ⟨renews_split, renews_aggregate, renews_batch, renews_call, renews_return, renews_http, renews_log,
    JsonParse.forwards_typed.renews, JsonStringify.forwards_typed.renews, trivial⟩

/-! ## Executions -/

/-- What an execution hands over: envelopes that go on, or the one that records its failure. -/
def Outcome.envelopes (o : Outcome) : List (Envelope Value) :=
  o.emitted ++ (o.failure?.map NodeFailure.envelope).toList

theorem Outcome.envelopes_ok (output : NodeOutput) : Outcome.envelopes (.ok output) = output.envelopes :=
  (List.append_nil _).trans (emitted_ok output)

/-- The envelope of a failure is the one that its input is carried forward in. -/
theorem NodeFailure.issues_of (node : NodeConfig) (input : Envelope Value) (error : NodeError) :
    (NodeFailure.of node input error).Issues 0 fun failure => {failure.envelope.id} :=
  (input.issues_forward node.id input.data).bind fun _ =>
    Issuing.issues_now.bind fun _ => Issuing.issues_pure (le_refl _)

/-- An execution hands over what its node has answered, or a new envelope that records the failure. -/
theorem Registry.renews_execute {registry : Registry}
    (h : ∀ entry ∈ registry.entries, entry.registration.definition.Renews) (context : NodeContext)
    (node : NodeConfig) (input : Envelope Value) :
    (registry.execute context node input).Renews fun o => Envelope.ids (Outcome.envelopes o) := by
  have hdispatch : (registry.dispatch context node input).Renews (idsIfAny NodeOutput.ids) := by
    rw [Registry.dispatch]
    split
    · exact renews_error _
    · split
      · exact renews_error _
      · rename_i definition hdefinition
        obtain ⟨entry, hentry, -, rfl⟩ := Registry.mem_of_definition hdefinition
        exact h entry hentry context node input
  refine fun state => (hdispatch state).andThen fun answer w w' hw => ?_
  cases answer with
  | ok output =>
    change w.Renews w' (Envelope.ids (Outcome.envelopes (.ok output)))
    rw [Outcome.envelopes_ok]
    exact hw
  | error error =>
    exact .of_renews hw ((Activity.renews_issue (NodeFailure.issues_of node input error)).map w')

/-! ## Runs -/

namespace RunState

variable {stages : Nat}

/-- The envelopes that a run holds. -/
def envelopes (r : RunState stages Execution) : List (Envelope Value) :=
  r.queue.map Prod.snd ++ r.running.map (fun x => x.2.input) ++ r.result.outputs ++
    r.result.failures.map NodeFailure.envelope

/-- What is started and what has passed the last stage is everything that was taken from the queue. -/
theorem ids_started_add_passed (queue : List (Nat × Envelope Value)) :
    Envelope.ids ((@started stages Execution (fun _ e => .fresh e) queue).map fun x => x.2.input) +
      Envelope.ids (passed stages queue) = Envelope.ids (queue.map Prod.snd) := by
  induction queue with
  | nil => rfl
  | cons x queue ih =>
    obtain ⟨stage, e⟩ := x
    by_cases hs : stage < stages
    · rw [started_cons_of_lt hs, passed_cons_of_lt hs, List.map_cons, List.map_cons, Envelope.ids_cons,
        Envelope.ids_cons, ← ih, add_assoc]
      rfl
    · have hle : stages ≤ stage := Nat.not_lt.mp hs
      rw [started_cons_of_le hle, passed_cons_of_le hle, List.map_cons, Envelope.ids_cons, Envelope.ids_cons,
        ← ih, add_left_comm]

/-- Starting executions moves envelopes. -/
theorem ids_filled (limit : Nat) (r : RunState stages Execution) :
    Envelope.ids (SharedRun.filled limit r).envelopes = Envelope.ids r.envelopes := by
  obtain ⟨taken, rest, hqueue, hfill⟩ := @RunState.fill_eq stages Execution (fun _ e => .fresh e) limit r
  rw [SharedRun.filled, hfill, envelopes, envelopes, hqueue]
  simp only [Envelope.ids_append, List.map_append, RunResult.outputs_append, RunResult.failures_append,
    ← @ids_started_add_passed stages taken]
  simp only [RunResult.ofOutputs, List.map_nil, Envelope.ids_nil]
  abel

theorem failures_ofOutcome (o : Outcome) :
    (RunResult.ofOutcome o).failures.map NodeFailure.envelope =
      (o.failure?.map NodeFailure.envelope).toList := by
  rcases o with failure | (e | es | _) <;> rfl

/-- The end of an execution replaces its input by what it hands over. -/
theorem ids_settle (r : RunState stages Execution) {before after : List (Fin stages × Execution)}
    {stage : Fin stages} {x : Execution} (hx : r.running = before ++ (stage, x) :: after) (o : Outcome) :
    Envelope.ids ({ r with running := before ++ after }.settle stage o).envelopes + {x.input.id} =
      Envelope.ids r.envelopes + Envelope.ids o.envelopes := by
  have hemitted : (o.emitted.map fun e => (stage.val + 1, e)).map Prod.snd = o.emitted := by
    rw [List.map_map]
    exact List.map_id _
  rw [settle_eq, envelopes, envelopes, hx, Outcome.envelopes]
  simp only [Envelope.ids_append, List.map_append, List.map_cons, RunResult.outputs_append,
    RunResult.outputs_ofOutcome, RunResult.failures_append, failures_ofOutcome, hemitted, Envelope.ids_cons,
    Envelope.ids_nil]
  abel

end RunState

/-- What is left of an execution draws on the supply alone. -/
def Execution.Renews : Execution → Prop
  | .fresh _ => True
  | .waiting _ _ resume => ∀ reply state,
    (resume reply state).Renews (fun o => Envelope.ids (Outcome.envelopes o)) state

/-- What others may do to the workspace: they draw on the supply, and put copies into groups. -/
def Workspace.Renewal (before after : Workspace) : Prop := before.Renews after 0

namespace SharedRun

variable {stages limit : Nat} {s t : SharedRun stages}
  {begin : Fin stages → Bool → Envelope Value → Activity Outcome}

/-- The identities of all envelopes that the run and the groups hold. -/
def ids (s : SharedRun stages) : Multiset Uuid := Envelope.ids s.run.envelopes + s.workspace.groups.ids

/-- The number of the next identity. -/
abbrev next (s : SharedRun stages) : Nat := s.workspace.supply.next

/-- The nodes of a run draw on the supply alone. -/
def Supplied (begin : Fin stages → Bool → Envelope Value → Activity Outcome) : Prop :=
  ∀ stage cancelled e, (begin stage cancelled e).Renews fun o => Envelope.ids (Outcome.envelopes o)

theorem input_mem_ids {before after : List (Fin stages × Execution)} {stage : Fin stages} {x : Execution}
    (hx : s.run.running = before ++ (stage, x) :: after) : x.input.id ∈ s.ids := by
  refine Multiset.mem_add.mpr (.inl (Envelope.mem_ids ?_))
  rw [RunState.envelopes, hx]
  simp

/-- What has happened in one step: the count of identities, and an execution that may have finished. -/
structure Renewed (s t : SharedRun stages) : Prop where
  running : ∀ x ∈ t.run.running, x.2.Renews
  renewal : s.workspace.Renewal t.workspace
  ids_le : t.ids ≤ s.ids + Supply.issued s.next t.next
  finished : t.finished = s.finished ∨ ∃ f, t.finished = s.finished ++ [f] ∧ f.input.id ∈ s.ids ∧
    Envelope.ids f.outcome.envelopes ≤ Supply.issued s.next t.next

theorem renews_filled {r : RunState stages Execution} (h : ∀ x ∈ r.running, x.2.Renews) :
    ∀ x ∈ (filled limit r).running, x.2.Renews := by
  obtain ⟨taken, rest, -, hfill⟩ := @RunState.fill_eq stages Execution (fun _ e => .fresh e) limit r
  rw [filled, hfill]
  intro x hx
  rcases List.mem_append.mp hx with hx | hx
  · exact h x hx
  · obtain ⟨e, -, hfresh⟩ := mem_started hx
    rw [hfresh]
    trivial

/-- An execution has finished. -/
theorem renewed_finished (hs : ∀ x ∈ s.run.running, x.2.Renews)
    {before after : List (Fin stages × Execution)} {stage : Fin stages} {x : Execution}
    (hx : s.run.running = before ++ (stage, x) :: after) {workspace : Workspace} {o : Outcome}
    (h : s.workspace.Renews workspace (Envelope.ids o.envelopes)) :
    s.Renewed (s.advance limit before after stage x.input (.finished workspace o)) where
  running := by
    refine renews_filled ?_
    rw [RunState.settle_eq]
    intro y hy
    refine hs y ?_
    rw [hx]
    simp only [List.mem_append, List.mem_cons] at hy ⊢
    exact hy.imp_right .inr
  renewal := h.mono (Multiset.zero_le _)
  ids_le := by
    have hsettle := s.run.ids_settle hx o
    rw [ids, ids, advance, RunState.ids_filled]
    calc Envelope.ids ({ s.run with running := before ++ after }.settle stage o).envelopes +
          workspace.groups.ids
        ≤ Envelope.ids s.run.envelopes + Envelope.ids o.envelopes + workspace.groups.ids := by
          rw [← hsettle]
          exact add_le_add_left (Multiset.le_add_right _ _) _
      _ = Envelope.ids s.run.envelopes + (workspace.groups.ids + Envelope.ids o.envelopes) := by abel
      _ ≤ Envelope.ids s.run.envelopes +
          (s.workspace.groups.ids + Supply.issued s.next workspace.supply.next) := add_le_add_right h.held _
      _ = _ := (add_assoc _ _ _).symm
  finished := .inr ⟨_, rfl, input_mem_ids hx, h.made⟩

/-- An execution has gone on, and waits. -/
theorem renewed_waiting (hs : ∀ x ∈ s.run.running, x.2.Renews)
    {before after : List (Fin stages × Execution)} {stage : Fin stages} {x : Execution}
    (hx : s.run.running = before ++ (stage, x) :: after) {workspace : Workspace} {request : Request}
    {resume : request.Reply → Workspace → Turn Outcome} (h : s.workspace.Renewal workspace)
    (hresume : Execution.Renews (.waiting x.input request resume)) :
    s.Renewed (s.advance limit before after stage x.input (.waiting workspace request resume)) where
  running := by
    intro y hy
    simp only [advance, List.mem_append, List.mem_cons] at hy
    rcases hy with hy | rfl | hy
    · exact hs y (by simp [hx, hy])
    · exact hresume
    · exact hs y (by simp [hx, hy])
  renewal := h
  ids_le := by
    have hheld := h.held
    have hsame : Envelope.ids (s.advance limit before after stage x.input
        (.waiting workspace request resume)).run.envelopes = Envelope.ids s.run.envelopes := by
      simp only [advance, RunState.envelopes, hx, List.map_append, List.map_cons]
      rfl
    rw [add_zero] at hheld
    rw [ids, ids, hsame, add_assoc]
    exact add_le_add_right hheld _
  finished := .inl rfl

/-- One step. -/
theorem Step.renewed (h : Step begin limit Workspace.Renewal s t) (hbegin : Supplied begin)
    (hs : ∀ x ∈ s.run.running, x.2.Renews) : s.Renewed t := by
  cases h with
  | elsewhere h =>
    refine ⟨hs, h, ?_, .inl rfl⟩
    have hheld := h.held
    rw [add_zero] at hheld
    rw [ids, ids, add_assoc]
    exact add_le_add_right hheld _
  | @goesOn before after stage x turn hx hturn =>
    have hrenews : turn.Renews (fun o => Envelope.ids (Outcome.envelopes o)) s.workspace := by
      cases hturn with
      | begun input cancelled => exact hbegin stage cancelled input s.workspace
      | replied input request resume reply =>
        have hleft : Execution.Renews (.waiting input request resume) := hs (stage, _) (by simp [hx])
        exact hleft reply s.workspace
    cases turn with
    | finished workspace o => exact renewed_finished hs hx hrenews
    | waiting workspace request resume => exact renewed_waiting hs hx hrenews.1 hrenews.2

/-- A run. -/
theorem Reaches.renewed (h : Reaches begin limit Workspace.Renewal s t) (hbegin : Supplied begin)
    (hs : ∀ x ∈ s.run.running, x.2.Renews) :
    (∀ x ∈ t.run.running, x.2.Renews) ∧ s.next ≤ t.next ∧
      t.ids ≤ s.ids + Supply.issued s.next t.next := by
  induction h with
  | refl => exact ⟨hs, Nat.le_refl _, by simp⟩
  | @tail t u hreach hstep ih =>
    obtain ⟨ht, hle, hids⟩ := ih
    have hrenewed := hstep.renewed hbegin ht
    refine ⟨hrenewed.running, hle.trans hrenewed.renewal.next_le, hrenewed.ids_le.trans ?_⟩
    rw [← Supply.issued_add_issued hle hrenewed.renewal.next_le, ← add_assoc]
    exact add_le_add_left hids _

/-! ### Where envelopes come from -/

/-- The envelope has been handed over by an execution of the run. -/
def HandedOver (s : SharedRun stages) (e : Envelope Value) : Prop :=
  ∃ f ∈ s.finished, e ∈ Outcome.envelopes f.outcome

/-- Everything but the input has been handed over, and so all that has come of a run with stages. -/
structure Sourced (s : SharedRun stages) : Prop where
  queue : ∀ x ∈ s.run.queue, 0 < x.1 → s.HandedOver x.2
  outputs : 0 < stages → ∀ e ∈ s.run.result.outputs, s.HandedOver e
  failures : ∀ failure ∈ s.run.result.failures, s.HandedOver failure.envelope

theorem Sourced.filled {r : RunState stages Execution} (h : Sourced { s with run := r }) (limit : Nat) :
    Sourced { s with run := SharedRun.filled limit r } := by
  obtain ⟨taken, rest, hqueue, hfill⟩ := @RunState.fill_eq stages Execution (fun _ e => .fresh e) limit r
  rw [SharedRun.filled, hfill]
  constructor
  case queue => exact fun x hx => h.queue x (hqueue ▸ List.mem_append_right taken hx)
  case outputs =>
    intro hpos e he
    rcases List.mem_append.mp he with he | he
    · exact h.outputs hpos e he
    · obtain ⟨x, hx, rfl⟩ := List.mem_map.mp he
      obtain ⟨hx, hle⟩ := List.mem_filter.mp hx
      exact h.queue x (hqueue ▸ List.mem_append_left rest hx) (hpos.trans_le (of_decide_eq_true hle))
  case failures =>
    intro failure hfailure
    refine h.failures failure ?_
    simpa [RunResult.ofOutputs] using hfailure

theorem sourced_begin (workspace : Workspace) (input : Envelope Value) :
    Sourced (SharedRun.begin limit workspace input : SharedRun stages) := by
  refine Sourced.filled (s := ⟨.start input, workspace, [], []⟩) ?_ limit
  constructor
  case queue =>
    intro x hx hpos
    rw [List.mem_singleton.mp hx] at hpos
    exact absurd hpos (Nat.lt_irrefl 0)
  all_goals simp [RunState.start]

theorem Step.sourced {later : Workspace → Workspace → Prop} (h : Step begin limit later s t)
    (hs : s.Sourced) : t.Sourced := by
  cases h with
  | elsewhere h => exact ⟨hs.queue, hs.outputs, hs.failures⟩
  | @goesOn before after stage x turn hx hturn =>
    cases turn with
    | waiting workspace request resume => exact ⟨hs.queue, hs.outputs, hs.failures⟩
    | finished workspace o =>
      refine Sourced.filled
        (s := ⟨s.run, workspace, s.asked, s.finished ++ [⟨stage, x.input, o⟩]⟩) ?_ limit
      have hbefore {e : Envelope Value} (he : s.HandedOver e) :
          ∃ f ∈ s.finished ++ [⟨stage, x.input, o⟩], e ∈ Outcome.envelopes f.outcome := by
        obtain ⟨f, hf, he⟩ := he
        exact ⟨f, List.mem_append_left _ hf, he⟩
      have hnow {e : Envelope Value} (he : e ∈ Outcome.envelopes o) :
          ∃ f ∈ s.finished ++ [⟨stage, x.input, o⟩], e ∈ Outcome.envelopes f.outcome :=
        ⟨_, List.mem_append_right _ (List.mem_singleton_self _), he⟩
      rw [RunState.settle_eq]
      constructor
      case queue =>
        intro y hy hpos
        rcases List.mem_append.mp hy with hy | hy
        · exact hbefore (hs.queue y hy hpos)
        · obtain ⟨e, he, rfl⟩ := List.mem_map.mp hy
          exact hnow (List.mem_append_left _ he)
      case outputs =>
        intro hpos e he
        rw [RunResult.outputs_append, RunResult.outputs_ofOutcome, List.append_nil] at he
        exact hbefore (hs.outputs hpos e he)
      case failures =>
        intro failure hfailure
        rcases List.mem_append.mp hfailure with hfailure | hfailure
        · exact hbefore (hs.failures failure hfailure)
        · refine hnow (List.mem_append_right _ ?_)
          rw [← RunState.failures_ofOutcome]
          exact List.mem_map_of_mem hfailure

theorem Reaches.sourced {later : Workspace → Workspace → Prop} (h : Reaches begin limit later s t)
    (hs : s.Sourced) : t.Sourced := by
  induction h with
  | refl => exact hs
  | tail _ hstep ih => exact hstep.sourced ih

/-! ### What is new -/

/-- An execution has finished on the way, and nothing that it has handed over had an identity that was
in use before, in whatever state, or had been given out. -/
def Introduced (begin : Fin stages → Bool → Envelope Value → Activity Outcome) (limit : Nat)
    (existing : Multiset Uuid) (s t : SharedRun stages) (f : RunState.Finished stages) : Prop :=
  ∃ u v, Reaches begin limit Workspace.Renewal s u ∧ Step begin limit Workspace.Renewal u v ∧
    Reaches begin limit Workspace.Renewal v t ∧ v.finished = u.finished ++ [f] ∧
    ∀ e ∈ Outcome.envelopes f.outcome, e.id ∉ existing + Supply.issued s.next u.next ∧
      ∀ earlier, Reaches begin limit Workspace.Renewal s earlier →
        Reaches begin limit Workspace.Renewal earlier u → e.id ∉ earlier.ids

theorem Introduced.step {existing : Multiset Uuid} {f : RunState.Finished stages} {u : SharedRun stages}
    (h : Introduced begin limit existing s t f) (hstep : Step begin limit Workspace.Renewal t u) :
    Introduced begin limit existing s u f := by
  obtain ⟨v, w, hv, hvw, hw, hnew⟩ := h
  exact ⟨v, w, hv, hvw, hw.tail hstep, hnew⟩

/-- What was in use at any time up to a state is not given out by a later step. -/
theorem Reaches.not_mem_ids {existing : Multiset Uuid} {u v : SharedRun stages}
    (hu : Reaches begin limit Workspace.Renewal s u) (huv : Reaches begin limit Workspace.Renewal u v)
    (hbegin : Supplied begin) (hs : ∀ x ∈ s.run.running, x.2.Renews) (hexisting : s.ids ≤ existing)
    {id : Uuid} (hid : id ∉ existing + Supply.issued s.next v.next) : id ∉ u.ids := by
  obtain ⟨hrunning, hle, hids⟩ := hu.renewed hbegin hs
  obtain ⟨-, hle', -⟩ := huv.renewed hbegin hrunning
  intro hmem
  refine hid (Multiset.mem_of_le ?_ hmem)
  exact hids.trans (add_le_add hexisting (Supply.issued_le hle hle'))

/-- If no identity is given out twice, then all that is handed over is new. -/
theorem Reaches.introduced {existing : Multiset Uuid} (h : Reaches begin limit Workspace.Renewal s t)
    (hbegin : Supplied begin) (hs : ∀ x ∈ s.run.running, x.2.Renews) (hfinished : s.finished = [])
    (hexisting : s.ids ≤ existing) (hfresh : (existing + Supply.issued s.next t.next).Nodup) :
    ∀ f ∈ t.finished, Introduced begin limit existing s t f ∧
      ∀ e ∈ Outcome.envelopes f.outcome, e.id ≠ f.input.id := by
  induction h with
  | refl =>
    intro f hf
    rw [hfinished] at hf
    cases hf
  | @tail t u hreach hstep ih =>
    have hreach : Reaches begin limit Workspace.Renewal s t := hreach
    obtain ⟨hrunning, hle, -⟩ := hreach.renewed hbegin hs
    have hrenewed := hstep.renewed hbegin hrunning
    rw [← Supply.issued_add_issued hle hrenewed.renewal.next_le, ← add_assoc, Multiset.nodup_add] at hfresh
    obtain ⟨hnodup, -, hdisjoint⟩ := hfresh
    intro f hf
    rcases hrenewed.finished with heq | ⟨f', heq, hinput, hmade⟩
    · obtain ⟨hnew, hne⟩ := ih hnodup f (heq ▸ hf)
      exact ⟨hnew.step hstep, hne⟩
    · rw [heq] at hf
      rcases List.mem_append.mp hf with hf | hf
      · obtain ⟨hnew, hne⟩ := ih hnodup f hf
        exact ⟨hnew.step hstep, hne⟩
      · obtain rfl := List.mem_singleton.mp hf
        have hnew : ∀ e ∈ Outcome.envelopes f.outcome, e.id ∉ existing + Supply.issued s.next t.next :=
          fun e he hmem => Multiset.disjoint_left.mp hdisjoint hmem
            (Multiset.mem_of_le hmade (Envelope.mem_ids he))
        constructor
        · refine ⟨t, u, hreach, hstep, .refl, heq, fun e he => ⟨hnew e he, ?_⟩⟩
          intro earlier hearlier hlater
          exact hearlier.not_mem_ids hlater hbegin hs hexisting (hnew e he)
        · intro e he hsame
          refine hreach.not_mem_ids .refl hbegin hs hexisting (hnew e he) ?_
          rw [hsame]
          exact hinput

end SharedRun

/-! ## Runs of standard nodes -/

section Run

variable {pipeline : List NodeConfig} {context : NodeContext}

theorem supplied_standard (context : NodeContext) (pipeline : List NodeConfig) :
    SharedRun.Supplied (Registry.standard.begin context pipeline) :=
  fun _ _ e => Registry.renews_execute (List.forall_mem_map.mpr renews_standard) _ _ e

theorem SharedRun.renews_begin {stages : Nat} (limit : Nat) (workspace : Workspace) (input : Envelope Value) :
    ∀ x ∈ (SharedRun.begin limit workspace input : SharedRun stages).run.running, x.2.Renews :=
  renews_filled fun _ hx => absurd hx List.not_mem_nil

theorem SharedRun.ids_begin {stages : Nat} (limit : Nat) (workspace : Workspace) (input : Envelope Value) :
    (SharedRun.begin limit workspace input : SharedRun stages).ids = {input.id} + workspace.groups.ids := by
  rw [ids, SharedRun.begin, RunState.ids_filled]
  rfl

/-- **Every envelope has its own identity.** Let the supply never give out an identity twice, nor one that
existed when the run began. Then at any time of a run of standard nodes, under any schedule, with any
replies, and whatever others do in the same workspace, no two envelopes that are in line, passing a
node, among the outputs and failures, or in a group have the same identity. Nothing that an execution
hands over has the identity of what it was given, or of anything that there was before; and unless the
pipeline is empty all outputs and failures have been handed over so, and none is the input. What the
run itself does in the workspace is no more than what others may do. -/
theorem SharedRun.identities_distinct {limit : Nat} {workspace : Workspace} {input : Envelope Value}
    {s : SharedRun pipeline.length} {existing : Multiset Uuid}
    (h : Reaches (Registry.standard.begin context pipeline) limit Workspace.Renewal
      (.begin limit workspace input) s)
    (hexisting : {input.id} + workspace.groups.ids ≤ existing)
    (hfresh : (existing + Supply.issued workspace.supply.next s.workspace.supply.next).Nodup) :
    s.ids.Nodup ∧
      (∀ f ∈ s.finished,
        Introduced (Registry.standard.begin context pipeline) limit existing
            (.begin limit workspace input) s f ∧
          ∀ e ∈ Outcome.envelopes f.outcome, e.id ≠ f.input.id) ∧
      (pipeline ≠ [] → ∀ e ∈ s.run.result.outputs ++ s.run.result.failures.map NodeFailure.envelope,
        s.HandedOver e ∧ e.id ≠ input.id) ∧
      ∀ t, Step (Registry.standard.begin context pipeline) limit Workspace.Renewal s t →
        s.workspace.Renewal t.workspace := by
  have hbegin := supplied_standard context pipeline
  have hbegun := @SharedRun.renews_begin pipeline.length limit workspace input
  have hids : (SharedRun.begin limit workspace input : SharedRun pipeline.length).ids ≤ existing := by
    rw [SharedRun.ids_begin]
    exact hexisting
  obtain ⟨hrunning, -, hle⟩ := h.renewed hbegin hbegun
  have hnew := h.introduced hbegin hbegun rfl hids hfresh
  refine ⟨Multiset.nodup_of_le (hle.trans (add_le_add_left hids _)) hfresh, hnew, ?_, fun t hstep =>
    (hstep.renewed hbegin hrunning).renewal⟩
  intro hpipeline e he
  have hsourced := h.sourced (sourced_begin workspace input)
  have hhanded : s.HandedOver e := by
    rcases List.mem_append.mp he with he | he
    · exact hsourced.outputs (List.length_pos_iff.mpr hpipeline) e he
    · obtain ⟨failure, hfailure, rfl⟩ := List.mem_map.mp he
      exact hsourced.failures failure hfailure
  refine ⟨hhanded, fun hsame => ?_⟩
  obtain ⟨f, hf, hmem⟩ := hhanded
  obtain ⟨⟨u, v, -, -, -, -, hunseen⟩, -⟩ := hnew f hf
  refine (hunseen e hmem).1 (Multiset.mem_add.mpr (.inl (Multiset.mem_of_le hexisting ?_)))
  rw [hsame]
  simp

end Run

/-- A sequence is split, its two items are copied into a group, and the group is merged. -/
theorem SharedRun.identities_distinct_merged :
    ∃ s e, Reaches (Registry.standard.begin ⟨"orders", "run-1", false⟩ mergingPipeline) 4
        Workspace.Renewal (.begin 4 { supply := ⟨1, default⟩ } faultyInput) s ∧
      s.run.result.outputs = [e] ∧ s.finished ≠ [] ∧ s.ids.Nodup ∧ s.HandedOver e ∧
        e.id ≠ faultyInput.id := by
  let engine : Engine := { settings := { maxParallel := 4 }, workspace := { supply := ⟨1, default⟩ } }
  obtain ⟨s, hreach, -, -, hresult, hworkspace⟩ := engine.exists_reaches ⟨"orders", "run-1", false⟩
    (Offline.reply default) mergingPipeline faultyInput Workspace.Renewal (.new {})
  let ended := engine.run ⟨"orders", "run-1", false⟩ (Offline.reply default) mergingPipeline faultyInput
    (.new {})
  have hoffline : s.run.result = ended.1 := hresult
  have hafter : s.workspace = ended.2.1.workspace := hworkspace
  have hsingle : s.run.result.outputs.length = 1 := by
    rw [hoffline]
    change (engine.run _ _ _ _ _).1.outputs.length = 1
    rw [Engine.run_eq]
    decide +kernel
  have hnext : s.workspace.supply.next = 6 := by
    rw [hafter]
    change (engine.run _ _ _ _ _).2.1.workspace.supply.next = 6
    rw [Engine.run_eq]
    decide +kernel
  obtain ⟨e, he⟩ := List.length_eq_one_iff.mp hsingle
  have hexisting : {faultyInput.id} + Groups.ids {} ≤ ({faultyInput.id} : Multiset Uuid) := le_refl _
  have hfresh : ({faultyInput.id} + Supply.issued 1 6 : Multiset Uuid).Nodup := by decide
  obtain ⟨hnodup, -, houtputs, -⟩ := SharedRun.identities_distinct hreach hexisting (by rwa [hnext])
  obtain ⟨hhanded, hne⟩ := houtputs (by decide) e (by simp [he])
  refine ⟨s, e, hreach, he, ?_, hnodup, hhanded, hne⟩
  obtain ⟨f, hf, -⟩ := hhanded
  exact List.ne_nil_of_mem hf

end FlowEngine
