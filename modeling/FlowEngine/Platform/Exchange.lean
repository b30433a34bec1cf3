import FlowEngine.Platform.Call
import FlowEngine.Platform.Store

/-!
# The exchange of calls and results

Callers that wait for the result of another workflow stand in a table of pending calls until they
are answered or give up. Each of them has a slot for one result. A result takes its call out of the
table: it goes into the caller's slot, or is refused if the call has expired. A result without a
pending call is kept in the data store.

A caller goes through several phases, and results can come in between any two of its steps. That is
why giving up takes two steps: first the call leaves the table, then the slot is looked at once
more, so that a result that was handed over in the meantime is not lost. It is also why a caller
that goes away leaves the table before its slot is gone: a result never finds a call in the table
whose slot cannot take it.

## Main definitions

* `SyncCall`, `CallPhase`: a caller and how far it is.
* `SyncCall.dispatched`, `receive`, `expire`, `heed`, `unregister`, `conclude`, `hangUp`, `vanish`:
  the steps of a caller.
* `Exchange`: the pending calls, all callers, and the data store.
* `Exchange.register`: a call begins; the other steps of a caller have the names that they have for
  a caller alone.
* `Exchange.resume`: all that a caller does when it is woken.
* `Exchange.deliver`: the arrival of a result.
-/

namespace FlowEngine

/-- The key under which a result without a waiting caller is kept. -/
def returnKey (callId : String) : String := "workflow_return:" ++ callId

/-- An entry of the table of pending calls. -/
structure PendingCall where
  source : SourceContext
  expiresAt : Instant

/-- Why a caller gives up. -/
inductive Abandonment where
  | timedOut
  | cancelled
  deriving DecidableEq, Repr

/-- How far a caller is. -/
inductive CallPhase where
  /-- The called workflow is being started. -/
  | dispatching
  /-- The called workflow has been started. -/
  | waiting
  /-- The caller has given up and still stands in the table. -/
  | leaving (why : Abandonment)
  /-- The caller has given up and no longer stands in the table. -/
  | left (why : Abandonment)
  /-- The caller goes, with an outcome or without one, and still stands in the table. -/
  | closing (outcome : Option (Except PlatformError CallResponse))
  /-- The caller goes and no longer stands in the table, but its slot is still there. -/
  | closed (outcome : Option (Except PlatformError CallResponse))
  /-- The caller is gone, and its slot with it. -/
  | gone (outcome : Option (Except PlatformError CallResponse))

namespace CallPhase

/-- Whether the caller has neither left the table nor gone. -/
def isListed : CallPhase → Bool
  | .dispatching | .waiting | .leaving _ | .closing _ => true
  | .left _ | .closed _ | .gone _ => false

/-- Whether the caller's slot is still there. -/
def isListening : CallPhase → Bool
  | .gone _ => false
  | _ => true

theorem isListening_of_isListed {p : CallPhase} (h : p.isListed) : p.isListening := by
  cases p <;> simp_all [isListed, isListening]

end CallPhase

/-- A caller. -/
structure SyncCall where
  started : Instant
  timeout : Duration
  /-- The result that has been handed over. -/
  slot : Option WorkflowReturn := none
  phase : CallPhase := .dispatching

namespace SyncCall

/-- When the caller gives up. -/
def deadline (c : SyncCall) : Instant := c.started.deadline c.timeout

/-- The outcome, if the call is over. -/
def outcome? (c : SyncCall) : Option (Except PlatformError CallResponse) :=
  match c.phase with
  | .gone outcome => outcome
  | _ => none

/-- The response of a call that is over with a result. -/
def response (c : SyncCall) (now : Instant) (id : String) (result : WorkflowReturn) :
    CallResponse where
  callId := id
  status := .completed
  data := some result.data
  returnStatus := some result.status
  duration := c.started.elapsed now

/-- The error of a caller that has given up. -/
def failure (c : SyncCall) (id : String) : Abandonment → PlatformError
  | .timedOut => .timeout id c.timeout.seconds
  | .cancelled => .cancelled id

/-- The called workflow has been started, or could not be. -/
def dispatched (outcome : Except PlatformError Unit) (c : SyncCall) : SyncCall :=
  match c.phase, outcome with
  | .dispatching, .ok () => { c with phase := .waiting }
  | .dispatching, .error e => { c with phase := .closing (some (.error e)) }
  | _, _ => c

/-- A waiting caller looks into its slot. The slot is cut off once the call is no longer in the
table, and is then either filled or useless. -/
def receive (now : Instant) (id : String) (isCutOff : Bool) (c : SyncCall) : SyncCall :=
  match c.phase, c.slot with
  | .waiting, some result => { c with phase := .closing (some (.ok (c.response now id result))) }
  | .waiting, none =>
    if !isCutOff then c
    else if c.deadline ≤ now then { c with phase := .leaving .timedOut }
    else { c with phase := .closing (some (.error (.deliveryFailed id "response slot closed"))) }
  | _, _ => c

/-- A waiting caller looks at the clock. -/
def expire (now : Instant) (c : SyncCall) : SyncCall :=
  match c.phase with
  | .waiting => if c.deadline ≤ now then { c with phase := .leaving .timedOut } else c
  | _ => c

/-- A caller finds that it has been cancelled. -/
def heed (c : SyncCall) : SyncCall :=
  match c.phase with
  | .dispatching | .waiting => { c with phase := .leaving .cancelled }
  | _ => c

/-- A caller that gives up or goes is taken out of the table. -/
def unregister (c : SyncCall) : SyncCall :=
  match c.phase with
  | .leaving why => { c with phase := .left why }
  | .closing outcome => { c with phase := .closed outcome }
  | _ => c

/-- A caller that has given up looks into its slot for the last time. -/
def conclude (now : Instant) (id : String) (c : SyncCall) : SyncCall :=
  match c.phase, c.slot with
  | .left _, some result => { c with phase := .closed (some (.ok (c.response now id result))) }
  | .left why, none => { c with phase := .closed (some (.error (c.failure id why))) }
  | _, _ => c

/-- The slot of a caller that goes is given up. -/
def hangUp (c : SyncCall) : SyncCall :=
  match c.phase with
  | .closed outcome => { c with phase := .gone outcome }
  | _ => c

/-- A caller goes away while it waits, for the start or for the result. -/
def vanish (c : SyncCall) : SyncCall :=
  match c.phase with
  | .dispatching | .waiting => { c with phase := .closing none }
  | _ => c

end SyncCall

/-- Callers and results, and the data store. -/
structure Exchange where
  settings : PlatformSettings
  pending : Dict PendingCall := {}
  calls : Dict SyncCall := {}
  store : DataStore

namespace Exchange

/-- An exchange that has not been used. -/
def new (settings : PlatformSettings) : Exchange := { settings, store := .new settings.storeTtl }

/-- How long a caller waits that asks for a number of seconds. None or zero stands for the
default. -/
def effectiveTimeout (x : Exchange) (seconds : Option Nat) : Duration :=
  match seconds with
  | some (n + 1) => .ofSeconds (n + 1)
  | _ => x.settings.callTimeout

/-- Changes a caller. -/
def update (x : Exchange) (id : String) (f : SyncCall → SyncCall) : Exchange :=
  match x.calls.get? id with
  | some c => { x with calls := x.calls.insert id (f c) }
  | none => x

/-- Takes a call out of the table. -/
def forget (x : Exchange) (id : String) : Exchange := { x with pending := x.pending.erase id }

theorem update_of_get? {x : Exchange} {id : String} {c : SyncCall} (h : x.calls.get? id = some c)
    (f : SyncCall → SyncCall) : x.update id f = { x with calls := x.calls.insert id (f c) } := by
  simp [update, h]

theorem update_of_none {x : Exchange} {id : String} (h : x.calls.get? id = none)
    (f : SyncCall → SyncCall) : x.update id f = x := by
  simp [update, h]

@[simp] theorem get?_calls_update (x : Exchange) (id : String) (f : SyncCall → SyncCall) :
    (x.update id f).calls.get? id = (x.calls.get? id).map f := by
  cases hc : x.calls.get? id with
  | none => rw [update_of_none hc, hc, Option.map_none]
  | some c => simp [update_of_get? hc]

/-- A call begins. The caller stands in the table before the called workflow is started, so that an
early result finds it. -/
def register (x : Exchange) (now : Instant) (id : String) (request : CallRequest) : Exchange :=
  let c : SyncCall := { started := now, timeout := x.effectiveTimeout request.timeoutSeconds }
  { x with
    pending := x.pending.insert id ⟨request.source, c.deadline⟩
    calls := x.calls.insert id c }

/-- The called workflow has been started, or could not be. -/
def dispatched (x : Exchange) (id : String) (outcome : Except PlatformError Unit) : Exchange :=
  x.update id (.dispatched outcome)

/-- A waiting caller looks into its slot. -/
def receive (x : Exchange) (now : Instant) (id : String) : Exchange :=
  x.update id (.receive now id (!x.pending.contains id))

/-- A waiting caller looks at the clock. -/
def expire (x : Exchange) (now : Instant) (id : String) : Exchange := x.update id (.expire now)

/-- A caller finds that it has been cancelled. -/
def heed (x : Exchange) (id : String) : Exchange := x.update id .heed

/-- A caller that gives up or goes leaves the table. -/
def unregister (x : Exchange) (id : String) : Exchange :=
  match (x.calls.get? id).map SyncCall.phase with
  | some (.leaving _) | some (.closing _) => (x.update id .unregister).forget id
  | _ => x

/-- Whether a caller leaves the table or has nothing to leave, it does as it does alone. -/
@[simp] theorem get?_calls_unregister (x : Exchange) (id : String) :
    (x.unregister id).calls.get? id = (x.calls.get? id).map SyncCall.unregister := by
  cases hc : x.calls.get? id with
  | none => simp [unregister, hc]
  | some c => cases hp : c.phase <;> simp [unregister, forget, SyncCall.unregister, hc, hp]

/-- A caller that has given up looks into its slot for the last time. -/
def conclude (x : Exchange) (now : Instant) (id : String) : Exchange :=
  x.update id (.conclude now id)

/-- The slot of a caller that goes is given up. -/
def hangUp (x : Exchange) (id : String) : Exchange := x.update id .hangUp

/-- A caller goes away while it waits. -/
def vanish (x : Exchange) (id : String) : Exchange := x.update id .vanish

/-- All that a caller does when it is woken, as far as it can go: a result comes before the clock,
and the clock before a cancellation. -/
def resume (x : Exchange) (now : Instant) (cancelled : Bool) (id : String) : Exchange :=
  let x := (x.receive now id).expire now id
  let x := if cancelled then x.heed id else x
  ((x.unregister id).conclude now id).hangUp id

/-- All that is left to do for a caller that goes away. -/
def drop (x : Exchange) (id : String) : Exchange := ((x.vanish id).unregister id).hangUp id

/-- The outcome of a call that is over. -/
def outcome? (x : Exchange) (id : String) : Option (Except PlatformError CallResponse) :=
  (x.calls.get? id).bind SyncCall.outcome?

/-- Puts a result into the slot of a caller. -/
def handOver (x : Exchange) (result : WorkflowReturn) : Except PlatformError Delivery × Exchange :=
  let id := result.callId
  match x.calls.get? id with
  | some c =>
    if !c.phase.isListening then (.error (.deliveryFailed id "caller is no longer waiting"), x)
    else if c.slot.isSome then (.error (.deliveryFailed id "response slot already filled"), x)
    else (.ok .delivered, x.update id fun c => { c with slot := some result })
  | none => (.error (.deliveryFailed id "caller is no longer waiting"), x)

/-- A result arrives. -/
def deliver (x : Exchange) (now : Instant) (result : WorkflowReturn) :
    Except PlatformError Delivery × Exchange :=
  let id := result.callId
  match x.pending.get? id with
  | none =>
    let (_, store) := x.store.store now (returnKey id) result.toValue x.settings.storeTtl
    (.ok .stored, { x with store })
  | some entry =>
    if entry.expiresAt ≤ now then (.error (.callExpired id), x.forget id)
    else (x.forget id).handOver result

/-! A result without a pending call is kept, one that finds an expired call is refused, and any
other goes to the caller, if the caller can take it. -/

theorem deliver_of_none {x : Exchange} {now : Instant} {r : WorkflowReturn}
    (h : x.pending.get? r.callId = none) :
    x.deliver now r = (.ok .stored, { x with
      store := (x.store.store now (returnKey r.callId) r.toValue x.settings.storeTtl).2 }) := by
  simp [deliver, h]

theorem deliver_of_expired {x : Exchange} {now : Instant} {r : WorkflowReturn} {entry : PendingCall}
    (h : x.pending.get? r.callId = some entry) (he : entry.expiresAt ≤ now) :
    x.deliver now r = (.error (.callExpired r.callId), x.forget r.callId) := by
  simp [deliver, h, he]

theorem deliver_of_open {x : Exchange} {now : Instant} {r : WorkflowReturn} {entry : PendingCall}
    (h : x.pending.get? r.callId = some entry) (he : ¬ entry.expiresAt ≤ now) {c : SyncCall}
    (hc : x.calls.get? r.callId = some c) (hs : c.slot = none) (hl : c.phase.isListening) :
    x.deliver now r = (.ok .delivered, { x with
      pending := x.pending.erase r.callId
      calls := x.calls.insert r.callId { c with slot := some r } }) := by
  simp [deliver, h, he, handOver, forget, hc, hs, hl, update]

theorem settings_deliver (x : Exchange) (now : Instant) (r : WorkflowReturn) :
    (x.deliver now r).2.settings = x.settings := by
  simp only [deliver, handOver, update, forget]
  repeat' split
  all_goals rfl

/-- A result that finds a call leaves the data store as it is. -/
theorem store_deliver_of_get? {x : Exchange} {now : Instant} {r : WorkflowReturn}
    {entry : PendingCall} (h : x.pending.get? r.callId = some entry) :
    (x.deliver now r).2.store = x.store := by
  simp only [deliver, h, handOver, update, forget]
  repeat' split
  all_goals rfl

theorem ttl_deliver (x : Exchange) (now : Instant) (r : WorkflowReturn) :
    (x.deliver now r).2.store.ttl = x.store.ttl := by
  cases h : x.pending.get? r.callId with
  | none => rw [deliver_of_none h, DataStore.ttl_store]
  | some entry => rw [store_deliver_of_get? h]

/-- A result changes nothing about callers but what is in their slots. -/
theorem get?_calls_deliver (x : Exchange) (now : Instant) (r : WorkflowReturn) (k : String) :
    ∃ f : SyncCall → Option WorkflowReturn,
      (x.deliver now r).2.calls.get? k = (x.calls.get? k).map fun c => { c with slot := f c } := by
  have same : ∃ f : SyncCall → Option WorkflowReturn,
      x.calls.get? k = (x.calls.get? k).map fun c => { c with slot := f c } :=
    ⟨SyncCall.slot, by simp⟩
  cases hx : x.pending.get? r.callId with
  | none => simpa [deliver_of_none hx] using same
  | some entry =>
    by_cases he : entry.expiresAt ≤ now
    · simpa [deliver_of_expired hx he, forget] using same
    · simp only [deliver, hx, he, handOver, forget, if_false]
      cases hc : x.calls.get? r.callId with
      | none => simpa using same
      | some c =>
        simp only
        split
        · simpa using same
        · split
          · simpa using same
          · refine ⟨fun c => if k = r.callId then some r else c.slot, ?_⟩
            by_cases hk : k = r.callId
            · simp [update, hc, hk]
            · simp [update, hc, hk]

/-! ### The data store -/

/-- Keeps a value. -/
def storeData (x : Exchange) (now : Instant) (key : String) (data : Value) (ttl : Duration) :
    Exchange :=
  { x with store := (x.store.store now key data ttl).2 }

/-- The value under a key. -/
def retrieveData (x : Exchange) (now : Instant) (key : String) :
    Except PlatformError Value × Exchange :=
  let (result, store) := x.store.retrieve now key
  (result.mapError .store, { x with store })

/-- Removes a key, and says whether it had a value. -/
def deleteData (x : Exchange) (key : String) : Bool × Exchange :=
  let (found, store) := x.store.delete key
  (found, { x with store })

/-- The result of a call whose caller was not waiting for it. -/
def retrieveReturn (x : Exchange) (now : Instant) (id : String) :
    Except PlatformError Value × Exchange :=
  x.retrieveData now (returnKey id)

end Exchange

end FlowEngine
