import FlowEngine.Node.Groups
import FlowEngine.Platform.Call

/-!
# Activities

What a node does: it works on state that all nodes share, and may now and then ask the platform for
something and go on once there is an answer. An activity is therefore a function of the shared
state that either finishes or stops at a request with the rest of the work as a function of the
reply.

## Main definitions

* `Request`, `Request.Reply`: what a node can ask for, and what it is answered.
* `Workspace`: the state that nodes share.
* `Turn`: an activity's state of affairs after it has been resumed.
* `Activity`: activities, which form a monad.
* `Activity.ask`, `Activity.use`, `Activity.issue`: requests, and work on the shared state.
* `Turn.settle`: the end of an activity whose requests are answered at once.
-/

namespace FlowEngine

/-- What a node can ask of the platform. -/
inductive Request where
  /-- A request to another system. -/
  | http (request : HttpRequest)
  /-- A call of another workflow. -/
  | call (request : CallRequest)
  /-- The answer to the call that started this run. -/
  | answer (callId : String) (data : Value) (status : String)
  /-- Some time. -/
  | pause (span : Duration)

/-- What a request is answered with. -/
def Request.Reply : Request → Type
  | .http _ => Except PlatformError HttpResponse
  | .call _ => Except PlatformError CallResponse
  | .answer .. => Except PlatformError Delivery
  | .pause _ => Unit

/-- The state that nodes share. -/
structure Workspace where
  supply : Supply
  variableStore : VariableStore := {}
  groups : Groups := {}

/-- An activity that has been resumed: it has finished, or waits for a reply. -/
inductive Turn (α : Type) where
  | finished (state : Workspace) (outcome : α)
  | waiting (state : Workspace) (request : Request) (resume : request.Reply → Workspace → Turn α)

/-- What a node does, depending on the shared state. -/
def Activity (α : Type) : Type := Workspace → Turn α

/-- Goes on with another activity after the end of this one. -/
def Turn.andThen {α β : Type} (next : α → Activity β) : Turn α → Turn β
  | .finished state outcome => next outcome state
  | .waiting state request resume =>
    .waiting state request fun reply state => (resume reply state).andThen next

namespace Activity

variable {α β : Type}

instance : Monad Activity where
  pure a := fun state => .finished state a
  bind activity next := fun state => (activity state).andThen next

/-- Asks the platform. -/
def ask (request : Request) : Activity request.Reply :=
  fun state => .waiting state request fun reply state => .finished state reply

/-- Works on the shared state. -/
def use (f : Workspace → α × Workspace) : Activity α :=
  fun state => .finished (f state).2 (f state).1

/-- Draws on the supply. -/
def issue (work : Issuing α) : Activity α :=
  use fun state => ((work state.supply).1, { state with supply := (work state.supply).2 })

/-- Draws on the supply, unless something is wrong. -/
def attempt {ε : Type} : Except ε (Issuing α) → Activity (Except ε α)
  | .ok work => do return .ok (← issue work)
  | .error e => pure (.error e)

@[simp] theorem pure_apply (a : α) (state : Workspace) :
    (pure a : Activity α) state = .finished state a := rfl

@[simp] theorem bind_apply (activity : Activity α) (next : α → Activity β) (state : Workspace) :
    (activity >>= next) state = (activity state).andThen next := rfl

end Activity

/-- The outcome of an activity whose requests are answered at once by `reply`, which may work on a
state of its own. -/
def Turn.settle {σ α : Type} (reply : (request : Request) → σ → request.Reply × σ) :
    σ → Turn α → α × Workspace × σ
  | s, .finished state outcome => (outcome, state, s)
  | s, .waiting state request resume =>
    let (answer, s) := reply request s
    (resume answer state).settle reply s

end FlowEngine
