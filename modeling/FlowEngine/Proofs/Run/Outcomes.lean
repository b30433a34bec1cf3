import FlowEngine.Proofs.Run.Progress
import FlowEngine.Proofs.Said

/-!
# What an execution may end with

An activity stops at requests, and what it is answered, and what others have done to the shared state
by the time it goes on, is not for it to say. `Turn.MayFinish` leaves all of this open: an outcome
may come of an activity if some replies and some states of what is shared lead to it. So it holds of
every outcome under any interleaving with other executions, with other runs and with time passing.

Identities and times differ from one execution to the next even if nothing else does. The content of
an envelope is what it says apart from them.

## Main definitions

* `Turn.MayFinish`: an outcome that an activity may end with.
* `Envelope.content`, `NodeOutput.content`, `NodeFailure.content`: envelopes without identities and
  times.
* `failureMessage`: what the envelope of a failure says.
* `RunState.Possible`: an outcome that the node of a stage may end with.

## Main results

* `Turn.MayFinish.of_andThen`, `Turn.mayFinish_settle`: sequences, and immediate replies.
* `Registry.execute_cases`: an execution ends as its node does.
-/

namespace FlowEngine

/-! ## Activities -/

/-- The activity may end with this outcome, whatever it is answered and whatever becomes of the shared
state while it waits. -/
inductive Turn.MayFinish {α : Type} : Turn α → α → Prop
  | finished (state : Workspace) (a : α) : MayFinish (.finished state a) a
  | resumed {state : Workspace} {request : Request}
    {resume : request.Reply → Workspace → Turn α} {a : α} (reply : request.Reply)
    (later : Workspace) (h : MayFinish (resume reply later) a) :
    MayFinish (.waiting state request resume) a

namespace Turn

variable {α β σ : Type}

theorem mayFinish_finished_iff {state : Workspace} {a b : α} :
    (Turn.finished state a).MayFinish b ↔ b = a := by
  constructor
  · intro h
    cases h
    rfl
  · rintro rfl
    exact .finished state b

/-- A sequence ends as its second activity does, after the first one has ended. -/
theorem MayFinish.of_andThen {t : Turn α} {next : α → Activity β} {b : β}
    (h : (t.andThen next).MayFinish b) :
    ∃ a state, t.MayFinish a ∧ (next a state).MayFinish b := by
  induction t with
  | finished state a => exact ⟨a, state, .finished state a, h⟩
  | waiting state request resume ih =>
    cases h with
    | resumed reply later h =>
      obtain ⟨a, state, ha, hb⟩ := ih reply later h
      exact ⟨a, state, .resumed reply later ha, hb⟩

/-- Replies that come at once are among the possible ones. -/
theorem mayFinish_settle (reply : (request : Request) → σ → request.Reply × σ) (s : σ)
    (t : Turn α) : t.MayFinish (t.settle reply s).1 := by
  induction t generalizing s with
  | finished state a => exact .finished state a
  | waiting state request resume ih =>
    exact .resumed (reply request s).1 state (ih (reply request s).1 state (reply request s).2)

end Turn

/-! ## Contents -/

/-- An error without its time. -/
def ExecutionError.undated (e : ExecutionError) : ExecutionError := { e with time := default }

/-- A message without the times of its errors. -/
def Message.undated {α : Type} (m : Message α) : Message α :=
  { m with errors := m.errors.map ExecutionError.undated }

/-- What an envelope says, apart from its identity and from times. -/
def Envelope.content {α : Type} (e : Envelope α) : Message α := e.toMessage.undated

/-- What an output says, apart from identities and times. -/
def NodeOutput.content : NodeOutput → Said
  | .single e => .single e.content
  | .many es => .many (es.map Envelope.content)
  | .pending => .pending

/-- A failure apart from identities and times. -/
def NodeFailure.content (f : NodeFailure) : NodeError × Message Value := (f.error, f.envelope.content)

section Message

variable {α β : Type} (m : Message α)

@[simp] theorem Message.undated_undated : m.undated.undated = m.undated := by
  simp [Message.undated, ExecutionError.undated]

@[simp] theorem Message.undated_forward [HasDataType β] (nodeId : String) (data : β) :
    (m.forward nodeId data).undated = m.undated.forward nodeId data := rfl

@[simp] theorem Message.undated_withError (e : ExecutionError) :
    (m.withError e).undated = m.undated.withError e.undated := by
  simp [Message.undated, Message.withError]

end Message

/-- What the envelope of a failure says. -/
def failureMessage (now : Timestamp) (node : NodeConfig) (input : Message Value) (error : NodeError) :
    Message Value :=
  (input.forward node.id input.data).withError (.ofNodeError now node.id error)

theorem undated_failureMessage (now : Timestamp) (node : NodeConfig) (input : Message Value)
    (error : NodeError) :
    (failureMessage now node input error).undated =
      (failureMessage default node input.undated error).undated := by
  simp only [failureMessage, Message.undated_withError, Message.undated_forward,
    Message.undated_undated]
  rfl

/-- The content of a failure depends on the content of the input alone. -/
theorem NodeFailure.content_of (node : NodeConfig) (input : Envelope Value) (error : NodeError)
    (supply : Supply) : (NodeFailure.of node input error supply).1.content =
      (error, (failureMessage default node input.content error).undated) :=
  congrArg (Prod.mk error) (undated_failureMessage supply.now node input.toMessage error)

/-! ## Executions -/

theorem Outcome.emitted_ok (output : NodeOutput) : Outcome.emitted (.ok output) = output.envelopes := by
  cases output <;> rfl

/-- An execution ends as its node does: with its output, or with the failure that records its error. -/
theorem Registry.execute_cases {registry : Registry} {context : NodeContext} {node : NodeConfig}
    {input : Envelope Value} {state : Workspace} {o : Outcome}
    (h : (registry.execute context node input state).MayFinish o) :
    (∃ output, (registry.dispatch context node input state).MayFinish (.ok output) ∧ o = .ok output) ∨
      ∃ error failure, (registry.dispatch context node input state).MayFinish (.error error) ∧
        o = .error failure ∧ failure.content =
          (error, (failureMessage default node input.content error).undated) := by
  obtain ⟨answer, later, hanswer, ho⟩ := h.of_andThen
  cases answer with
  | ok output => exact .inl ⟨output, hanswer, Turn.mayFinish_finished_iff.mp ho⟩
  | error error =>
    exact .inr ⟨error, _, hanswer, Turn.mayFinish_finished_iff.mp ho, NodeFailure.content_of ..⟩

/-- An outcome that the node of a stage may end with. -/
def RunState.Possible (registry : Registry) (context : NodeContext) (pipeline : List NodeConfig)
    (c : RunState.Finished pipeline.length) : Prop :=
  ∃ state, (registry.execute context pipeline[c.stage] c.input state).MayFinish c.outcome

end FlowEngine
