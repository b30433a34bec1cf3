import FlowEngine.Proofs.Exchange.Delivery
import FlowEngine.Proofs.Run.Carried

/-!
# Answers and their calls

A called workflow does not hold on to its caller. All that leads back is one entry of the metadata,
which the first message of the run has and every node leaves alone. The node that answers reads it from
the envelope that it was given, however many nodes, merges and nested calls that has come through. So a
run whose nodes are not configured to answer another call answers its own.

Together with what an exchange keeps, this says where the results of calls come from. `Traffic` is any
number of called runs beside an exchange: calls begin, callers wait, give up and go, runs are started,
each goes on by itself, and what they answer arrives, once or more and at any later time. Nothing else
answers. Then a call that completes, completes with what a run of its own has answered.

## Main definitions

* `CalledRun`: a run that has been started by a call, as far as it has come.
* `CalledRun.GoesOn`: one step of it.
* `Traffic`: an exchange and the runs that its calls have started.

## Main results

* `CalledRun.eq_of_answered`: a run answers its own call.
* `Course.Registered.unique`: a call begins once.
* `Traffic.sound`: every answer has been asked for by a run that a call has started.
* `Traffic.completed_by_own`: results never go to the wrong caller.
-/

namespace FlowEngine

/-! ## Called runs -/

/-- A run of standard nodes that has been started by a call, as far as it has come. None of its nodes
is configured to answer a certain call, and no group of the run was open at its beginning. -/
structure CalledRun where
  request : TriggerRequest
  agentId : String
  runId : String
  context : NodeContext
  pipeline : List NodeConfig
  limit : Nat
  workspace : Workspace
  input : Envelope Value
  state : SharedRun pipeline.length
  toMessage_input : input.toMessage = request.message agentId runId
  idle : workspace.groups.Idle agentId runId
  callId_config : ∀ node ∈ pipeline, node.nodeType = "workflow.return" →
    node.nonemptyText? "call_id" = none
  reached : StandardRun context pipeline limit workspace input state

namespace CalledRun

/-- The run has not gone on since it was started. -/
def IsNew (r : CalledRun) : Prop := r.state = .begin r.limit r.workspace r.input

/-- A stage of the run has answered a call. -/
def Answered (r : CalledRun) (stage : Nat) (id : String) (data : Value) (status : String) : Prop :=
  ∃ h : stage < r.pipeline.length, (⟨stage, h⟩, .answer id data status) ∈ r.state.asked

/-- One step of the run, or of what else uses its workspace. -/
inductive GoesOn (r : CalledRun) : CalledRun → Prop
  | step {s : SharedRun r.pipeline.length}
    (h : SharedRun.Step (Registry.standard.begin r.context r.pipeline) r.limit
      (Workspace.Spares r.input.trace.agentId r.input.trace.runId) r.state s) :
    GoesOn r { r with state := s, reached := r.reached.tail h }

theorem GoesOn.request_eq {r r' : CalledRun} (h : r.GoesOn r') : r'.request = r.request := by
  cases h
  rfl

/-- A step takes back nothing that has been asked. -/
theorem GoesOn.answered {r r' : CalledRun} (h : r.GoesOn r') {stage : Nat} {id status : String}
    {data : Value} (hanswered : r.Answered stage id data status) :
    r'.Answered stage id data status := by
  obtain ⟨hlt, hasked⟩ := hanswered
  cases h with
  | step h => exact ⟨hlt, h.asked_subset hasked⟩

variable {r : CalledRun} {stage : Nat} {id status : String} {data : Value}

/-- **A run answers its own call**, with a node that answers calls. -/
theorem eq_of_answered (h : r.Answered stage id data status) :
    id = r.request.callId ∧
      ∃ node, r.pipeline[stage]? = some node ∧ node.nodeType = "workflow.return" := by
  obtain ⟨hlt, hasked⟩ := h
  have htrace : r.input.trace = .start r.agentId r.runId "trigger" :=
    congrArg Message.trace r.toMessage_input
  have htype : r.input.toMessage.dataType = r.input.toMessage.data.dataType := by
    rw [r.toMessage_input]
    rfl
  have hcall : r.input.toMessage.metadata.get? callIdKey = some r.request.callId := by
    rw [r.toMessage_input]
    simp [TriggerRequest.message, Message.withMeta, callIdKey, sourceWorkflowKey, sourceRunKey]
  have hkept := r.reached.kept (by rw [htrace]; exact r.idle) htype
  obtain ⟨hreturn, hid⟩ := hkept.asked _ hasked
  have hnone := r.callId_config r.pipeline[stage] (List.getElem_mem hlt) hreturn
  refine ⟨?_, r.pipeline[stage], List.getElem?_eq_getElem hlt, hreturn⟩
  change (r.pipeline[stage].nonemptyText? "call_id").or _ = some id at hid
  rw [hnone, Option.none_or, hcall] at hid
  exact (Option.some.inj hid).symm

end CalledRun

/-! ## Calls -/

namespace Course

variable {settings : PlatformSettings} {events : List Event} {id : String}

/-- A call that has begun keeps its place among the calls. -/
theorem Registered.isSome_call {started : Instant} {call : CallRequest}
    (h : Registered settings events id started call) :
    ((run settings events).exchange.calls.get? id).isSome := by
  induction events using List.reverseRecOn with
  | nil => exact (not_occurs_nil h).elim
  | append_singleton events e ih =>
    rw [run_concat]
    rcases occurs_concat.mp h with h | ⟨rfl, hnone, hle⟩
    · cases (step_spec (run settings events) e).caller id with
      | absent hs _ => simpa [hs] using ih h
      | begins hs _ _ _ _ ht => simpa [hs] using ih h
      | goes c hs slot phase _ ht => rw [ht, Option.isSome_some]
    · simp [step, hnone, hle, on, Exchange.register]

/-- A call begins once. -/
theorem Registered.unique {started started' : Instant} {call call' : CallRequest}
    (h : Registered settings events id started call)
    (h' : Registered settings events id started' call') : started' = started ∧ call' = call := by
  induction events using List.reverseRecOn with
  | nil => exact (not_occurs_nil h).elim
  | append_singleton events e ih =>
    rcases occurs_concat.mp h with h | ⟨he, hnone, -⟩
    · rcases occurs_concat.mp h' with h' | ⟨-, hnone, -⟩
      · exact ih h h'
      · simpa [hnone] using Registered.isSome_call h
    · rcases occurs_concat.mp h' with h' | ⟨he', -, -⟩
      · simpa [hnone] using Registered.isSome_call h'
      · obtain ⟨-, hstarted, hcall⟩ := Event.register.inj (he'.symm.trans he)
        exact ⟨hstarted, hcall⟩

theorem Registered.concat {started : Instant} {call : CallRequest}
    (h : Registered settings events id started call) (e : Event) :
    Registered settings (events ++ [e]) id started call :=
  occurs_concat.mpr (.inl h)

/-- The run has been started by a call that has begun. -/
def Starts (settings : PlatformSettings) (events : List Event) (r : CalledRun) : Prop :=
  ∃ id started call now, Registered settings events id started call ∧
    r.request = call.trigger id now

theorem Starts.concat {r : CalledRun} (h : Starts settings events r) (e : Event) :
    Starts settings (events ++ [e]) r := by
  obtain ⟨id, started, call, now, hregistered, hrequest⟩ := h
  exact ⟨id, started, call, now, hregistered.concat e, hrequest⟩

end Course

/-! ## All together -/

open Course

/-- An exchange and the runs that its calls have started, in any order. -/
inductive Traffic (settings : PlatformSettings) : List Event → List CalledRun → Prop
  /-- Nothing has happened. -/
  | start : Traffic settings [] []
  /-- Something happens at the exchange: a call begins, a caller goes on, time passes. -/
  | event {events : List Event} {runs : List CalledRun} (h : Traffic settings events runs) (e : Event)
    (he : ∀ result, e ≠ .answer result) : Traffic settings (events ++ [e]) runs
  /-- A call starts a run. -/
  | launch {events : List Event} {runs : List CalledRun} (h : Traffic settings events runs)
    (r : CalledRun) (hnew : r.IsNew) (hcall : Starts settings events r) :
    Traffic settings events (r :: runs)
  /-- A run goes on. -/
  | goesOn {events : List Event} {before after : List CalledRun} {r r' : CalledRun}
    (h : Traffic settings events (before ++ r :: after)) (hstep : r.GoesOn r') :
    Traffic settings events (before ++ r' :: after)
  /-- What a run has answered arrives. -/
  | answer {events : List Event} {runs : List CalledRun} (h : Traffic settings events runs)
    {r : CalledRun} (hr : r ∈ runs) {stage : Nat} {id status : String} {data : Value}
    (hanswered : r.Answered stage id data status) (returnedAt : Timestamp) :
    Traffic settings (events ++ [.answer ⟨id, data, status, returnedAt⟩]) runs

namespace Traffic

/-- What is true of all traffic: the runs have been started by calls, and what arrives has been
answered by one of them. -/
structure Sound (settings : PlatformSettings) (events : List Event) (runs : List CalledRun) :
    Prop where
  started : ∀ r ∈ runs, Starts settings events r
  answered : ∀ result, .answer result ∈ events →
    ∃ r ∈ runs, ∃ stage, r.Answered stage result.callId result.data result.status

variable {settings : PlatformSettings} {events : List Event} {runs : List CalledRun}

theorem Sound.goesOn {before after : List CalledRun} {r r' : CalledRun}
    (h : Sound settings events (before ++ r :: after)) (hstep : r.GoesOn r') :
    Sound settings events (before ++ r' :: after) where
  started := by
    intro x hx
    simp only [List.mem_append, List.mem_cons] at hx
    rcases hx with hx | rfl | hx
    · exact h.started x (by simp [hx])
    · rw [Starts, hstep.request_eq]
      exact h.started r (by simp)
    · exact h.started x (by simp [hx])
  answered := by
    intro result hresult
    obtain ⟨x, hx, stage, hanswered⟩ := h.answered result hresult
    simp only [List.mem_append, List.mem_cons] at hx
    rcases hx with hx | rfl | hx
    · exact ⟨x, by simp [hx], stage, hanswered⟩
    · exact ⟨r', by simp, stage, hstep.answered hanswered⟩
    · exact ⟨x, by simp [hx], stage, hanswered⟩

theorem sound (h : Traffic settings events runs) : Sound settings events runs := by
  induction h with
  | start => exact ⟨by simp, by simp⟩
  | event h e he ih =>
    refine ⟨fun r hr => (ih.started r hr).concat e, fun result hresult => ?_⟩
    rcases List.mem_append.mp hresult with hresult | hresult
    · exact ih.answered result hresult
    · exact absurd (List.mem_singleton.mp hresult).symm (he result)
  | launch h r hnew hcall ih =>
    refine ⟨fun x hx => ?_, fun result hresult => ?_⟩
    · rcases List.mem_cons.mp hx with rfl | hx
      · exact hcall
      · exact ih.started x hx
    · obtain ⟨x, hx, hanswered⟩ := ih.answered result hresult
      exact ⟨x, by simp [hx], hanswered⟩
  | goesOn h hstep ih => exact ih.goesOn hstep
  | answer h hr hanswered returnedAt ih =>
    refine ⟨fun r hr => (ih.started r hr).concat _, fun result hresult => ?_⟩
    rcases List.mem_append.mp hresult with hresult | hresult
    · exact ih.answered result hresult
    · obtain rfl := Event.answer.inj (List.mem_singleton.mp hresult)
      exact ⟨_, hr, _, hanswered⟩

/-- A call that has completed has a result that has arrived. -/
theorem exists_answer_of_completed {id status : String} {data : Value}
    (h : Completed (run settings events) id data status) :
    ∃ result, .answer result ∈ events ∧ result.callId = id ∧ result.data = data ∧
      result.status = status := by
  obtain ⟨result, hdelivered, hresult⟩ := (sound_run settings events).delivered_of_completed h
  obtain ⟨before, e, after, rfl, rfl, -⟩ := hdelivered
  exact ⟨result, by simp, hresult⟩

/-- **Results never go to the wrong caller.** Whatever a run answers, it answers the call that has
started it. And however any number of calls and runs take turns, a call that completes, completes with
what a run has answered that this very call has started. -/
theorem completed_by_own :
    (∀ (r : CalledRun) (stage : Nat) (id : String) (data : Value) (status : String),
      r.Answered stage id data status → id = r.request.callId) ∧
    ∀ (settings : PlatformSettings) (events : List Event) (runs : List CalledRun),
      Traffic settings events runs → ∀ (id : String) (data : Value) (status : String),
        Completed (run settings events) id data status →
          ∃ started call, Registered settings events id started call ∧
            (∀ started' call', Registered settings events id started' call' →
              started' = started ∧ call' = call) ∧
            ∃ r ∈ runs, (∃ now, r.request = call.trigger id now) ∧
              ∃ stage node, r.Answered stage id data status ∧ r.pipeline[stage]? = some node ∧
                node.nodeType = "workflow.return" := by
  refine ⟨fun r stage id data status h => (CalledRun.eq_of_answered h).1, ?_⟩
  intro settings events runs h id data status hcompleted
  obtain ⟨result, hresult, rfl, rfl, rfl⟩ := exists_answer_of_completed hcompleted
  obtain ⟨r, hr, stage, hanswered⟩ := h.sound.answered result hresult
  obtain ⟨hid, node, hnode, htype⟩ := CalledRun.eq_of_answered hanswered
  obtain ⟨id, started, call, now, hregistered, hrequest⟩ := h.sound.started r hr
  -- The request names the call that has started the run, and the answer names the same.
  obtain rfl : result.callId = id := by rw [hid, hrequest, CallRequest.trigger]
  exact ⟨started, call, hregistered, fun _ _ h' => hregistered.unique h', r, hr, ⟨now, hrequest⟩,
    stage, node, hanswered, hnode, htype⟩

/-- A call with a text. -/
def textCall (text : String) : CallRequest := { sampleCall with data := .string text }

/-- A run that such a call has started, and that answers at once. -/
def replyingRun (id text : String) : CalledRun :=
  let request := (textCall text).trigger id default
  let supply : Supply := ⟨1, default⟩
  let input := ((request.message "billing" "run-2").seal supply).1
  { request
    agentId := "billing"
    runId := "run-2"
    context := ⟨"billing", "run-2", false⟩
    pipeline := [{ id := "reply", nodeType := "workflow.return" }]
    limit := 4
    workspace := { supply }
    input
    state := .begin 4 { supply } input
    toMessage_input := rfl
    idle := fun _ => rfl
    callId_config := by
      intro node hnode _
      rw [List.mem_singleton.mp hnode]
      rfl
    reached := .refl }

theorem exists_answered_replyingRun (id text : String) :
    ∃ r, (replyingRun id text).GoesOn r ∧ r.Answered 0 id (.string text) "success" := by
  have hrunning : (replyingRun id text).state.run.running =
    [] ++ (⟨0, Nat.one_pos⟩, .fresh (replyingRun id text).input) :: [] := rfl
  exact ⟨_, .step (.goesOn hrunning (.begun _ false _)), Nat.one_pos, List.mem_singleton.mpr rfl⟩

/-- Two calls that are answered in the other order. -/
def crossed : List Event :=
  [.register "a" ⟨0⟩ (textCall "one"), .register "b" ⟨0⟩ (textCall "two"), .dispatched "a" (.ok ()),
    .dispatched "b" (.ok ()), .answer ⟨"b", .string "two", "success", default⟩,
    .answer ⟨"a", .string "one", "success", default⟩, .receive "a", .unregister "a", .hangUp "a"]

theorem completed_by_own_crossed :
    ∃ runs, Traffic {} crossed runs ∧ Completed (run {} crossed) "a" (.string "one") "success" ∧
      ∃ r ∈ runs, (∃ now, r.request = (textCall "one").trigger "a" now) ∧
        ∃ stage, r.Answered stage "a" (.string "one") "success" := by
  obtain ⟨a, hgoesOn, ha⟩ := exists_answered_replyingRun "a" "one"
  obtain ⟨b, hgoesOn', hb⟩ := exists_answered_replyingRun "b" "two"
  have hregistered : Registered {} [.register "a" ⟨0⟩ (textCall "one"),
      .register "b" ⟨0⟩ (textCall "two")] "a" ⟨0⟩ (textCall "one") :=
    ⟨[], _, [_], rfl, rfl, rfl, by decide⟩
  have hregistered' : Registered {} [.register "a" ⟨0⟩ (textCall "one"),
      .register "b" ⟨0⟩ (textCall "two")] "b" ⟨0⟩ (textCall "two") :=
    ⟨[_], _, [], rfl, rfl, rfl, by decide⟩
  have hbegun : Traffic {} [.register "a" ⟨0⟩ (textCall "one"), .register "b" ⟨0⟩ (textCall "two")]
      [replyingRun "b" "two", replyingRun "a" "one"] :=
    (((Traffic.start.event _ (by simp)).event _ (by simp)).launch (replyingRun "a" "one") rfl
      ⟨_, _, _, _, hregistered, rfl⟩).launch (replyingRun "b" "two") rfl
        ⟨_, _, _, _, hregistered', rfl⟩
  have hlate : Traffic {} _ ([] ++ b :: [replyingRun "a" "one"]) := Traffic.goesOn hbegun hgoesOn'
  have hboth : Traffic {} _ ([b] ++ a :: []) := Traffic.goesOn hlate hgoesOn
  have htraffic : Traffic {} crossed [b, a] :=
    ((((((hboth.event (.dispatched "a" (.ok ())) nofun).event (.dispatched "b" (.ok ())) nofun).answer
      (by simp) hb default).answer (by simp) ha default).event (.receive "a") nofun).event
        (.unregister "a") nofun).event (.hangUp "a") nofun
  have hcompleted : Completed (run {} crossed) "a" (.string "one") "success" := ⟨_, rfl⟩
  obtain ⟨-, hcalls⟩ := completed_by_own
  obtain ⟨started, call, hcall, hunique, r, hr, ⟨now, hrequest⟩, stage, -, hanswered, -⟩ :=
    hcalls {} crossed [b, a] htraffic "a" (.string "one") "success" hcompleted
  obtain ⟨-, rfl⟩ := hunique ⟨0⟩ (textCall "one") ⟨[], _, _, rfl, rfl, rfl, by decide⟩
  exact ⟨[b, a], htraffic, hcompleted, r, hr, ⟨now, hrequest⟩, stage, hanswered⟩

end Traffic

end FlowEngine
