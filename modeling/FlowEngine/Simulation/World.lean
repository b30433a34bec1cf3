import FlowEngine.Platform.Offline
import FlowEngine.Engine
import FlowEngine.Simulation.Script

/-!
# Simulated engines

An engine with everything around it: a clock that moves only when it is told to, and workflows that
behave as scripted when they are called. What happens is a deterministic function of what is asked
for and of how the clock moves.

Several things go on at once: calls, answers that are still to come, runs with their executions.
Each of them goes on when it can, in the order in which they were woken.

## Main definitions

* `World`: a simulated engine.
* `Work`, `Flight`, `Job`, `Task`: what goes on in it.
* `World.poll`: the progress of an activity.
-/

namespace FlowEngine

/-- The start of a called workflow, under way. -/
structure Dispatch where
  doneAt : Instant
  outcome : Except PlatformError Unit
  /-- When the start has taken longer than it may. -/
  lostAt : Instant
  loss : PlatformError

/-- How a start has ended, if it has. One that ends just in time counts. -/
def Dispatch.outcome? (d : Dispatch) (now : Instant) : Option (Except PlatformError Unit) :=
  if d.doneAt ≤ now then some d.outcome else if d.lostAt ≤ now then some (.error d.loss) else none

/-- A call under way. -/
structure OpenCall where
  id : String
  /-- What cancels the caller. -/
  token : Nat
  mode : CallMode
  started : Instant
  /-- The start of the called workflow, until it has ended. -/
  dispatch : Option Dispatch

/-- An activity that waits. -/
inductive Parked (α : Type) where
  | pause (due : Instant) (resume : Unit → Workspace → Turn α)
  | call (c : OpenCall) (resume : Except PlatformError CallResponse → Workspace → Turn α)

/-- An activity that has not finished. How one begins depends on whether it has been cancelled by
then. -/
inductive Work (α : Type) where
  | fresh (begin : Bool → Activity α)
  | parked (p : Parked α)

/-- An execution of a node, with its place in the order of waking if it is awake. -/
structure Flight where
  wake : Option Nat
  work : Work (Except NodeFailure NodeOutput)

/-- A run under way. -/
structure Running where
  agentId : String
  runId : String
  token : Nat
  pipeline : List NodeConfig
  state : RunState pipeline.length Flight

/-- Whom the result of a run is for. -/
inductive Purpose where
  /-- For whoever has asked for it under this number. -/
  | request (number : Nat)
  /-- For nobody; a script has started the run. -/
  | script

/-- What goes on. -/
inductive Job where
  /-- A call from outside of any run. -/
  | call (work : Work (Except PlatformError CallResponse))
  /-- An answer that is still to come. -/
  | answer (due : Instant) (callId : String) (data : Value) (status : String)
  /-- A run that is still to begin. -/
  | begin (due : Instant) (target : String) (request : TriggerRequest) (pipeline : List NodeConfig)
  /-- A run. -/
  | run (purpose : Purpose) (r : Running)
  /-- A cancellation that is still to come. -/
  | cancel (due : Instant) (token : Nat)

/-- Something that goes on, with its place in the order of waking if it is awake. -/
structure Task where
  id : Nat
  /-- What cancels it. -/
  token : Nat
  wake : Option Nat
  job : Job

/-- An answer of a scripted workflow, and what has become of it. -/
inductive Reply where
  | early (outcome : Except PlatformError Delivery)
  | late (time : Instant) (outcome : Except PlatformError Delivery)
  | run (time : Instant) (result : RunResult)

/-- A simulated engine. -/
structure World where
  clock : Instant := ⟨0⟩
  engine : Engine
  exchange : Exchange
  scripts : Dict Script := {}
  /-- What goes on, in the order in which it was started. -/
  tasks : List Task := []
  nextTask : Nat := 0
  nextToken : Nat := 0
  nextWake : Nat := 0
  /-- The tokens that have been cancelled. -/
  cancelled : List Nat := []
  /-- The tokens of workflows and their runs. -/
  contexts : List ((String × String) × Nat) := []
  /-- How many activities pause, and how many have at most. -/
  pausing : Nat := 0
  peak : Nat := 0
  /-- The starts of workflows, in order. -/
  dispatched : Array (String × TriggerRequest) := #[]
  /-- What scripted workflows have answered, in order. -/
  replies : Array Reply := #[]
  /-- The calls that are over, by task. -/
  endedCalls : Array (Nat × Instant × Except PlatformError CallResponse) := #[]
  /-- The requested runs that are over, by number. -/
  endedRuns : List (Nat × Instant × RunResult) := []

namespace World

/-- A simulated engine in which nothing has happened yet. -/
def new (settings : EngineSettings) (registry : Registry) (scripts : Dict Script)
    (supply : Supply) : World where
  engine := { settings, registry, workspace := { supply } }
  exchange := .new settings.platform
  scripts := scripts

/-- Whether a token has been cancelled. -/
def isCancelled (w : World) (token : Nat) : Bool := w.engine.isShutDown || token ∈ w.cancelled

/-- A token that was not used before. -/
def freshToken (w : World) : Nat × World := (w.nextToken, { w with nextToken := w.nextToken + 1 })

/-- The state that nodes share, replaced. -/
def withWorkspace (w : World) (workspace : Workspace) : World :=
  { w with engine.workspace := workspace }

/-- Starts something. It is awake. -/
def spawn (w : World) (token : Nat) (job : Job) : World :=
  { w with
    tasks := w.tasks ++ [⟨w.nextTask, token, some w.nextWake, job⟩]
    nextTask := w.nextTask + 1
    nextWake := w.nextWake + 1 }

/-- The result of a called workflow arrives. -/
def deliver (w : World) (callId : String) (data : Value) (status : String) :
    Except PlatformError Delivery × World :=
  let (outcome, exchange) :=
    w.exchange.deliver w.clock ⟨callId, data, status, w.engine.workspace.supply.now⟩
  (outcome, { w with exchange })

/-! ### Calls -/

/-- Starts a called workflow: it gives its early answers, and its late ones are on their way. -/
def dispatch (w : World) (target : String) (request : TriggerRequest) : Dispatch × World :=
  let script := Script.find w.scripts target
  let w := { w with dispatched := w.dispatched.push (target, request) }
  let w := script.early.foldl (fun w a =>
    let (outcome, w) := w.deliver request.callId (a.data.getD request.callData) a.status
    { w with replies := w.replies.push (.early outcome) }) w
  let w := script.late.foldl (fun w (span, a) =>
    let due := w.clock.after span
    let (token, w) := w.freshToken
    match a with
    | .answer a => w.spawn token (.answer due request.callId (a.data.getD request.callData) a.status)
    | .run pipeline => w.spawn token (.begin due target request pipeline)) w
  let budget := w.exchange.settings.triggerTimeout
  ({ doneAt := w.clock.after script.delay
     outcome := match script.failure with
       | some reason => .error (.triggerFailed target reason)
       | none => .ok ()
     lostAt := w.clock.deadline budget
     loss := .dispatchTimedOut target budget }, w)

/-- A caller, looked at: it goes on as far as it can. -/
def pollWaiting (w : World) (c : OpenCall) :
    (Except PlatformError CallResponse ⊕ OpenCall) × World :=
  let w := { w with exchange := w.exchange.resume w.clock (w.isCancelled c.token) c.id }
  match w.exchange.outcome? c.id with
  | some outcome => (.inl outcome, w)
  | none => (.inr { c with dispatch := none }, w)

/-- A call, looked at. Cancelling comes first while the called workflow is being started. -/
def pollCall (w : World) (c : OpenCall) : (Except PlatformError CallResponse ⊕ OpenCall) × World :=
  match c.dispatch, c.mode with
  | none, _ => w.pollWaiting c
  | some d, .async =>
    match d.outcome? w.clock with
    | none => (.inr c, w)
    | some (.ok ()) => (.inl (.ok (.sent c.id (c.started.elapsed w.clock))), w)
    | some (.error e) => (.inl (.error e), w)
  | some d, .sync =>
    if w.isCancelled c.token then w.pollWaiting c
    else
      match d.outcome? w.clock with
      | none => (.inr c, w)
      | some outcome =>
        { w with exchange := w.exchange.dispatched c.id outcome }.pollWaiting c

/-- A call begins. -/
def beginCall (w : World) (token : Nat) (request : CallRequest) :
    (Except PlatformError CallResponse ⊕ OpenCall) × World :=
  match request.check with
  | .error e => (.inl (.error e), w)
  | .ok () =>
    let (uuid, supply) := w.engine.workspace.supply.fresh
    let w := { w with engine.workspace.supply := supply }
    let id := uuid.text
    let c : OpenCall := ⟨id, token, request.mode, w.clock, none⟩
    let w := match request.mode with
      | .sync => { w with exchange := w.exchange.register w.clock id request }
      | .async => w
    if request.mode = .sync ∧ w.isCancelled token then w.pollWaiting c
    else
      let (d, w) := w.dispatch request.target (request.trigger id supply.now)
      w.pollCall { c with dispatch := some d }

/-- Whether a call can go on. -/
def canGoOn (w : World) (c : OpenCall) : Bool :=
  match c.dispatch with
  | some d => (d.outcome? w.clock).isSome || (c.mode == .sync && w.isCancelled c.token)
  | none =>
    match w.exchange.calls.get? c.id with
    | some s =>
      s.slot.isSome || s.deadline ≤ w.clock || !w.exchange.pending.contains c.id ||
        w.isCancelled c.token
    | none => true

/-- The instants at which a call can go on, if nothing happens before. -/
def callDues (w : World) (c : OpenCall) : List Instant :=
  match c.dispatch with
  | some d => [d.doneAt, d.lostAt]
  | none => (w.exchange.calls.get? c.id).toList.map SyncCall.deadline

/-! ### Activities -/

/-- An activity goes on until it finishes or has to wait. -/
def drive {α : Type} (token : Nat) : Turn α → World → (α ⊕ Parked α) × World
  | .finished state outcome, w => (.inl outcome, w.withWorkspace state)
  | .waiting state (.http request) resume, w =>
    drive token (resume (Offline.http request) state) w
  | .waiting state (.answer callId data status) resume, w =>
    let (outcome, w) := (w.withWorkspace state).deliver callId data status
    drive token (resume outcome w.engine.workspace) w
  | .waiting state (.pause span) resume, w =>
    let w := w.withWorkspace state
    let w := { w with peak := max w.peak (w.pausing + 1) }
    if span.isZero then drive token (resume () w.engine.workspace) w
    else (.inr (.pause (w.clock.deadline span) resume), { w with pausing := w.pausing + 1 })
  | .waiting state (.call request) resume, w =>
    match (w.withWorkspace state).beginCall token request with
    | (.inl outcome, w) => drive token (resume outcome w.engine.workspace) w
    | (.inr c, w) => (.inr (.call c resume), w)

/-- An activity, looked at: it goes on if it can. -/
def poll {α : Type} (w : World) (token : Nat) : Work α → (α ⊕ Parked α) × World
  | .fresh begin => drive token (begin (w.isCancelled token) w.engine.workspace) w
  | .parked (.pause due resume) =>
    if due ≤ w.clock then
      drive token (resume () w.engine.workspace) { w with pausing := w.pausing - 1 }
    else (.inr (.pause due resume), w)
  | .parked (.call c resume) =>
    match w.pollCall c with
    | (.inl outcome, w) => drive token (resume outcome w.engine.workspace) w
    | (.inr c, w) => (.inr (.call c resume), w)

/-- Whether an activity can go on. -/
def isReady {α : Type} (w : World) : Work α → Bool
  | .fresh _ => true
  | .parked (.pause due _) => due ≤ w.clock
  | .parked (.call c _) => w.canGoOn c

/-- The instants at which an activity can go on. -/
def dues {α : Type} (w : World) : Work α → List Instant
  | .fresh _ => []
  | .parked (.pause due _) => [due]
  | .parked (.call c _) => w.callDues c

end World

end FlowEngine
