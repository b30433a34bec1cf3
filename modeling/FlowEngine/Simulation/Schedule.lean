import FlowEngine.Simulation.World

/-!
# The schedule of a simulation

Whatever can go on is woken and gets the next number; the smallest number goes on first, as far as
it can without waiting. Once nothing can go on any more, only the clock can help: it moves from one
due instant to the next, and everything goes on as far as it can at each of them.

Scripts can make workflows call each other for ever, so each of these loops takes a number of steps
after which it stops.

## Main definitions

* `World.rouse`: wakes what can go on.
* `World.settle`: lets everything go on until all wait.
* `World.advance`: moves the clock.
* `World.runPipeline`, `World.call`: a run and a call from outside.
-/

namespace FlowEngine

namespace World

/-- Gives the next numbers to the executions that can go on. -/
def rouseFlights {n : Nat} (w : World) (next : Nat) :
    List (Fin n × Flight) → List (Fin n × Flight) × Nat
  | [] => ([], next)
  | (stage, f) :: rest =>
    let (f, next) :=
      if f.wake.isNone && w.isReady f.work then ({ f with wake := some next }, next + 1) else (f, next)
    let (rest, next) := w.rouseFlights next rest
    ((stage, f) :: rest, next)

/-- Gives the next numbers to the executions of a run that can go on. -/
def rouseRun (w : World) (next : Nat) (r : Running) : Running × Nat :=
  let (running, next) := w.rouseFlights next r.state.running
  ({ r with state := { r.state with running } }, next)

/-- Gives the next numbers to a task that can go on, and to the executions in it. -/
def rouseTask (w : World) (next : Nat) (t : Task) : Task × Nat :=
  let wakeIf (ready : Bool) : Task × Nat :=
    if t.wake.isNone && ready then ({ t with wake := some next }, next + 1) else (t, next)
  match t.job with
  | .call work => wakeIf (w.isReady work)
  | .answer due _ _ _ => wakeIf (due ≤ w.clock)
  | .begin due _ _ _ => wakeIf (due ≤ w.clock)
  | .cancel due _ => wakeIf (due ≤ w.clock)
  | .run purpose r =>
    let (r, later) := w.rouseRun next r
    let wake := if t.wake.isNone && next < later then some next else t.wake
    ({ t with wake, job := .run purpose r }, later)

/-- Wakes what can go on. -/
def rouse (w : World) : World :=
  let (tasks, next) := w.tasks.foldl (fun (done, next) t =>
    let (t, next) := w.rouseTask next t
    (done ++ [t], next)) ([], w.nextWake)
  { w with tasks, nextWake := next }

/-- Wakes what can go on, in a run first. -/
def rouseWith (w : World) (r : Running) : World × Running :=
  let (r, next) := w.rouseRun w.nextWake r
  ({ w with nextWake := next }.rouse, r)

/-- The position of the smallest number. -/
def firstAwake (wakes : List (Option Nat)) : Option Nat :=
  match (wakes.filterMap id).min? with
  | some least => wakes.findIdx? (· == some least)
  | none => none

/-- The work of a node on an envelope. -/
def work (w : World) (r : Running) (stage : Fin r.pipeline.length) (e : Envelope Value) :
    Flight where
  wake := none
  work := .fresh fun cancelled =>
    w.engine.registry.execute ⟨r.agentId, r.runId, cancelled⟩ r.pipeline[stage] e

/-- A run goes on as far as it can. With its result if that is to the end. -/
def pollRun : Nat → World → Running → Option RunResult × World × Running
  | 0, w, r => (none, w, r)
  | fuel + 1, w, r =>
    let r := { r with state := r.state.fill w.engine.settings.maxParallel (w.work r) }
    let (w, r) := w.rouseWith r
    match firstAwake (r.state.running.map fun x => x.2.wake) with
    | none => (if r.state.running.isEmpty then some r.state.result else none, w, r)
    | some i =>
      match r.state.running[i]? with
      | none => (none, w, r)
      | some (stage, flight) =>
        let (outcome, w) := w.poll r.token flight.work
        let state := match outcome with
          | .inl outcome =>
            { r.state with running := r.state.running.eraseIdx i }.settle stage outcome
          | .inr p =>
            { r.state with running := r.state.running.set i (stage, ⟨none, .parked p⟩) }
        let (w, r) := w.rouseWith { r with state }
        w.pollRun fuel r

/-- A number of steps that no simulation of reasonable length needs. -/
def patience : Nat := UInt64.size

/-- A run that begins. -/
def newRun (token : Nat) (agentId runId : String) (pipeline : List NodeConfig)
    (input : Envelope Value) : Running :=
  { agentId, runId, token, pipeline, state := .start input }

/-- A run goes on, and its result is noted if that is to the end. -/
def goOnRun (w : World) (purpose : Purpose) (r : Running) : Option Job × World :=
  let (result, w, r) := pollRun patience w r
  match result with
  | none => (some (.run purpose r), w)
  | some result =>
    (none, match purpose with
      | .request number => { w with endedRuns := w.endedRuns ++ [(number, w.clock, result)] }
      | .script => { w with replies := w.replies.push (.run w.clock result) })

/-- A job goes on as far as it can. With what is left of it, if it is not done. -/
def goOn (w : World) (task : Nat) (token : Nat) : Job → Option Job × World
  | .call work =>
    match w.poll token work with
    | (.inl outcome, w) =>
      (none, { w with endedCalls := w.endedCalls.push (task, w.clock, outcome) })
    | (.inr p, w) => (some (.call (.parked p)), w)
  | .answer due callId data status =>
    if due ≤ w.clock then
      let (outcome, w) := w.deliver callId data status
      (none, { w with replies := w.replies.push (.late w.clock outcome) })
    else (some (.answer due callId data status), w)
  | .begin due target request pipeline =>
    if due ≤ w.clock then
      let runId := "run-called"
      let (input, engine) := w.engine.issue (request.message target runId)
      { w with engine }.goOnRun .script (newRun token target runId pipeline input)
    else (some (.begin due target request pipeline), w)
  | .run purpose r => w.goOnRun purpose r
  | .cancel due token =>
    if due ≤ w.clock then (none, { w with cancelled := token :: w.cancelled })
    else (some (.cancel due token), w)

/-- The task that was woken first goes on. -/
def step (w : World) : Option World := do
  let i ← firstAwake (w.tasks.map Task.wake)
  let t ← w.tasks[i]?
  let (job, w) := w.goOn t.id t.token t.job
  let tasks := match job with
    | some job => w.tasks.set i { t with wake := none, job }
    | none => w.tasks.eraseIdx i
  return { w with tasks }.rouse

/-- Lets everything go on until all wait. -/
def settleFor : Nat → World → World
  | 0, w => w
  | fuel + 1, w =>
    match w.step with
    | some w => settleFor fuel w
    | none => w

/-- Lets everything go on until all wait. -/
def settle (w : World) : World := settleFor patience w.rouse

/-- The instants at which a task can go on. -/
def taskDues (w : World) (t : Task) : List Instant :=
  match t.job with
  | .call work => w.dues work
  | .answer due _ _ _ => [due]
  | .begin due _ _ _ => [due]
  | .cancel due _ => [due]
  | .run _ r => r.state.running.flatMap fun x => w.dues x.2.work

/-- The next instant at which something can go on. -/
def nextDue (w : World) : Option Instant :=
  (((w.tasks.flatMap w.taskDues).filter (w.clock < ·)).map Instant.nanos).min?.map Instant.mk

/-- Moves the clock to an instant, by way of every instant before it at which something can go
on. -/
def advanceFor : Nat → Instant → World → World
  | 0, _, w => w
  | fuel + 1, target, w =>
    match w.nextDue.filter (· ≤ target) with
    | some due => advanceFor fuel target { w with clock := due }.settle
    | none => { w with clock := target }.settle

/-- Moves the clock on. -/
def advance (w : World) (span : Duration) : World :=
  advanceFor patience (w.clock.after span) w.settle

/-! ### From outside -/

/-- The token of a workflow and its run. -/
def token? (w : World) (agentId runId : String) : Option Nat := w.contexts.lookup (agentId, runId)

/-- Makes a context for a run, in the place of one that there may have been. -/
def newContext (w : World) (agentId runId : String) : Nat × World :=
  let (token, w) := w.freshToken
  (token, { w with contexts := ((agentId, runId), token) :: w.contexts })

/-- The context of a run, which is made if there is none. -/
def context (w : World) (agentId runId : String) : Nat × World :=
  match w.token? agentId runId with
  | some token => (token, w)
  | none => w.newContext agentId runId

/-- Cancels a token. -/
def cancel (w : World) (token : Nat) : World :=
  { w with cancelled := token :: w.cancelled }.settle

/-- Cancels every run. -/
def shutDown (w : World) : World := { w with engine := w.engine.shutDown }.settle

/-- Moves the clock until a requested run is over. -/
def awaitRun (number : Nat) : Nat → World → Option (Instant × RunResult) × World
  | 0, w => (none, w)
  | fuel + 1, w =>
    match w.endedRuns.lookup number with
    | some ended => (some ended, w)
    | none =>
      match w.nextDue with
      | some due => awaitRun number fuel { w with clock := due }.settle
      | none => (none, w)

/-- Runs a pipeline to its end, and says how long that has taken. The run can be cancelled after
some time. -/
def runPipeline (w : World) (agentId runId : String) (pipeline : List NodeConfig)
    (input : Message Value) (cancelAfter : Option Duration) : Option (Duration × RunResult) × World :=
  let began := w.clock
  let (token, w) := w.context agentId runId
  let (input, engine) := w.engine.issue input
  let w := { w with engine }
  let number := w.nextTask
  let w := w.spawn token (.run (.request number) (newRun token agentId runId pipeline input))
  let w := match cancelAfter with
    | some span => w.spawn token (.cancel (w.clock.after span) token)
    | none => w
  let (ended, w) := awaitRun number patience w.settle
  (ended.map fun (time, result) => (began.elapsed time, result), w)

/-- A call from outside of any run. Answers the task that it is, and its token. -/
def call (w : World) (request : CallRequest) (cancelled : Bool) : Nat × Nat × World :=
  let task := w.nextTask
  let (token, w) := w.freshToken
  let w := if cancelled then { w with cancelled := token :: w.cancelled } else w
  let w := w.spawn token (.call (.fresh fun _ => Activity.ask (.call request)))
  (task, token, w.settle)

/-- Drops a call. Nobody waits for its result any more. -/
def abort (w : World) (task : Nat) : World :=
  let dropped := w.tasks.filter fun t => t.id == task
  let exchange := dropped.foldl (fun x t =>
    match t.job with
    | .call (.parked (.call c _)) => x.drop c.id
    | _ => x) w.exchange
  { w with exchange, tasks := w.tasks.filter fun t => t.id != task }.settle

/-- Something outside of any run is done with the exchange. -/
def useExchange {α : Type} (w : World) (f : Instant → Exchange → α × Exchange) : α × World :=
  let (a, exchange) := f w.clock w.exchange
  (a, { w with exchange }.settle)

/-- The result of a called workflow arrives from outside of any run. -/
def answer (w : World) (callId : String) (data : Value) (status : String) :
    Except PlatformError Delivery × World :=
  let (outcome, w) := w.deliver callId data status
  (outcome, w.settle)

end World

end FlowEngine
