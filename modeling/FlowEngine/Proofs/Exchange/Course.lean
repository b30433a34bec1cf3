import FlowEngine.Platform.Exchange
import Mathlib.Data.List.Induction

/-!
# Courses of an exchange

What can happen to an exchange while several callers wait and results arrive: any list of events is
a course, in any order and of any length. Each event is one step of one caller, one result, one use
of the data store, one cancellation, or time passing. Nothing forces a caller to go on once it can,
so every interleaving of the callers with each other and with the results is a course.

## What an event may do

An event that cannot happen changes nothing. A call begins only under an identifier that no call has
had, with a reading of the clock that lies in the past; a caller finds that it has been cancelled
only once its token is; time never goes back. Everything else is decided by the operations of the
exchange themselves.

`Turn` and `Step` say the same by cases: which phase a caller is in after one of its steps, and what
any event does to the exchange. They are all that the invariants have to know about the operations.

## Main definitions

* `Course`, `Course.Event`, `Course.step`, `Course.run`
* `Course.fate`: what a result that arrives now is told.
* `Course.Turn`, `Course.Step`: a step of a caller, and of anything, by cases.
* `Course.CallerStep`: what a step does to one caller.
* `Course.Occurs`: an event that came at some point of a course.
* `Course.poll`, `Course.leave`: the steps of a caller that is woken and of one that goes away, in
  their order.

## Main results

* `Course.step_spec`, `Course.Step.caller`: every event is a step.
* `Course.occurs_concat`: what has occurred after one more event.
* `Course.exchange_run_poll`, `Course.exchange_run_leave`: this is what `Exchange.resume` and
  `Exchange.drop` do.
-/

namespace FlowEngine

/-- An exchange at a moment. -/
structure Course where
  exchange : Exchange
  clock : Instant := ⟨0⟩
  /-- The calls whose callers have been cancelled. -/
  cancelled : List String := []

namespace Course

/-- What can happen. -/
inductive Event where
  /-- A call begins. Its caller has looked at the clock before. -/
  | register (id : String) (started : Instant) (request : CallRequest)
  /-- The start of the called workflow ends. -/
  | dispatched (id : String) (outcome : Except PlatformError Unit)
  /-- The token of a caller is cancelled. -/
  | cancel (id : String)
  /-- A waiting caller looks into its slot. -/
  | receive (id : String)
  /-- A waiting caller looks at the clock. -/
  | expire (id : String)
  /-- A caller looks at its token. -/
  | heed (id : String)
  /-- A caller leaves the table. -/
  | unregister (id : String)
  /-- A caller that has given up looks into its slot for the last time. -/
  | conclude (id : String)
  /-- The slot of a caller is given up. -/
  | hangUp (id : String)
  /-- A caller goes away while it waits. -/
  | vanish (id : String)
  /-- A result arrives. -/
  | answer (result : WorkflowReturn)
  /-- Time passes. -/
  | pass (span : Duration)
  /-- A value is kept in the data store. -/
  | keep (key : String) (data : Value) (ttl : Duration)
  /-- A key of the data store is read. -/
  | read (key : String)
  /-- A key of the data store is removed. -/
  | discard (key : String)

/-- Changes the exchange. -/
def on (s : Course) (f : Exchange → Exchange) : Course := { s with exchange := f s.exchange }

/-- One event. -/
def step (s : Course) : Event → Course
  | .register id started request =>
    if (s.exchange.calls.get? id).isNone ∧ started ≤ s.clock then
      s.on fun x => x.register started id request
    else s
  | .dispatched id outcome => s.on fun x => x.dispatched id outcome
  | .cancel id => { s with cancelled := id :: s.cancelled }
  | .receive id => s.on fun x => x.receive s.clock id
  | .expire id => s.on fun x => x.expire s.clock id
  | .heed id => if id ∈ s.cancelled then s.on fun x => x.heed id else s
  | .unregister id => s.on fun x => x.unregister id
  | .conclude id => s.on fun x => x.conclude s.clock id
  | .hangUp id => s.on fun x => x.hangUp id
  | .vanish id => s.on fun x => x.vanish id
  | .answer result => s.on fun x => (x.deliver s.clock result).2
  | .pass span => { s with clock := s.clock.after span }
  | .keep key data ttl => s.on fun x => x.storeData s.clock key data ttl
  | .read key => s.on fun x => (x.retrieveData s.clock key).2
  | .discard key => s.on fun x => (x.deleteData key).2

/-- What a result that arrives now is told. -/
def fate (s : Course) (result : WorkflowReturn) : Except PlatformError Delivery :=
  (s.exchange.deliver s.clock result).1

theorem fate_of_none {s : Course} {r : WorkflowReturn}
    (hx : s.exchange.pending.get? r.callId = none) : s.fate r = .ok .stored := by
  rw [fate, Exchange.deliver_of_none hx]

theorem fate_of_expired {s : Course} {r : WorkflowReturn} {entry : PendingCall}
    (hx : s.exchange.pending.get? r.callId = some entry) (he : entry.expiresAt ≤ s.clock) :
    s.fate r = .error (.callExpired r.callId) := by
  rw [fate, Exchange.deliver_of_expired hx he]

/-- The phase of a call. -/
def phase? (s : Course) (id : String) : Option CallPhase :=
  (s.exchange.calls.get? id).map SyncCall.phase

/-- An exchange in which nothing has happened. -/
def start (settings : PlatformSettings) : Course := { exchange := .new settings }

/-- The state after a list of events. -/
def run (settings : PlatformSettings) (events : List Event) : Course :=
  events.foldl step (start settings)

@[simp] theorem run_nil (settings : PlatformSettings) : run settings [] = start settings := rfl

@[simp] theorem run_concat (settings : PlatformSettings) (events : List Event) (e : Event) :
    run settings (events ++ [e]) = (run settings events).step e := by
  simp [run]

theorem run_append (settings : PlatformSettings) (events rest : List Event) :
    run settings (events ++ rest) = rest.foldl step (run settings events) :=
  List.foldl_append

/-! ## The steps of a caller -/

/-- `Turn s id c e p`: in the state `s` the event `e` takes the caller `c` of the call `id` to the
phase `p`. Nothing else about the caller changes. -/
inductive Turn (s : Course) (id : String) (c : SyncCall) : Event → CallPhase → Prop
  /-- The event finds nothing to do. -/
  | stay (e : Event) (he : ∀ r, e ≠ .answer r) : Turn s id c e c.phase
  | started (hp : c.phase = .dispatching) : Turn s id c (.dispatched id (.ok ())) .waiting
  | notStarted (hp : c.phase = .dispatching) (e : PlatformError) :
    Turn s id c (.dispatched id (.error e)) (.closing (some (.error e)))
  | received (hp : c.phase = .waiting) (r : WorkflowReturn) (hs : c.slot = some r) :
    Turn s id c (.receive id) (.closing (some (.ok (c.response s.clock id r))))
  | cutOff (hp : c.phase = .waiting) (hs : c.slot = none)
    (hx : s.exchange.pending.get? id = none) (hd : c.deadline ≤ s.clock) :
    Turn s id c (.receive id) (.leaving .timedOut)
  | lost (hp : c.phase = .waiting) (hs : c.slot = none)
    (hx : s.exchange.pending.get? id = none) (hd : ¬ c.deadline ≤ s.clock) :
    Turn s id c (.receive id)
      (.closing (some (.error (.deliveryFailed id "response slot closed"))))
  | timedOut (hp : c.phase = .waiting) (hd : c.deadline ≤ s.clock) :
    Turn s id c (.expire id) (.leaving .timedOut)
  | cancelled (hp : c.phase = .dispatching ∨ c.phase = .waiting) (hc : id ∈ s.cancelled) :
    Turn s id c (.heed id) (.leaving .cancelled)
  | quit (why : Abandonment) (hp : c.phase = .leaving why) :
    Turn s id c (.unregister id) (.left why)
  | delisted (o : Option (Except PlatformError CallResponse)) (hp : c.phase = .closing o) :
    Turn s id c (.unregister id) (.closed o)
  | found (why : Abandonment) (hp : c.phase = .left why) (r : WorkflowReturn)
    (hs : c.slot = some r) :
    Turn s id c (.conclude id) (.closed (some (.ok (c.response s.clock id r))))
  | missed (why : Abandonment) (hp : c.phase = .left why) (hs : c.slot = none) :
    Turn s id c (.conclude id) (.closed (some (.error (c.failure id why))))
  | hungUp (o : Option (Except PlatformError CallResponse)) (hp : c.phase = .closed o) :
    Turn s id c (.hangUp id) (.gone o)
  | vanished (hp : c.phase = .dispatching ∨ c.phase = .waiting) :
    Turn s id c (.vanish id) (.closing none)

theorem Turn.ne_answer {s : Course} {id : String} {c : SyncCall} {e : Event} {p : CallPhase}
    (h : Turn s id c e p) (r : WorkflowReturn) : e ≠ .answer r := by
  cases h with
  | stay e he => exact he r
  | _ => simp

/-- A caller that has left the table does not come back. -/
theorem Turn.isListed_of_isListed {s : Course} {id : String} {c : SyncCall} {e : Event}
    {p : CallPhase} (h : Turn s id c e p) (hp : p.isListed) : c.phase.isListed := by
  cases h with
  | stay e he => exact hp
  | cancelled hc => rcases hc with hc | hc <;> simp [hc, CallPhase.isListed]
  | vanished hc => rcases hc with hc | hc <;> simp [hc, CallPhase.isListed]
  | _ => simp_all [CallPhase.isListed]

/-- A caller in another phase. It leaves the table if it stood there and the phase says so. -/
def turned (s : Course) (id : String) (c : SyncCall) (p : CallPhase) : Course :=
  s.on fun x => { x with
    calls := x.calls.insert id { c with phase := p }
    pending := if c.phase.isListed && !p.isListed then x.pending.erase id else x.pending }

theorem get?_calls_turned (s : Course) (id : String) (c : SyncCall) (p : CallPhase) (k : String) :
    (s.turned id c p).exchange.calls.get? k =
      if k = id then some { c with phase := p } else s.exchange.calls.get? k := by
  simp [turned, on]

theorem get?_pending_turned (s : Course) (id : String) (c : SyncCall) (p : CallPhase) (k : String) :
    (s.turned id c p).exchange.pending.get? k =
      if k = id ∧ c.phase.isListed ∧ p.isListed = false then none
      else s.exchange.pending.get? k := by
  by_cases hk : k = id <;> cases hc : c.phase.isListed <;> cases hp : p.isListed <;>
    simp [turned, on, hk, hc, hp]

/-- A step by cases. A result that finds a call in the table goes through the operations of the
exchange as it is; whether the caller can take it is for the invariants to say. -/
inductive Step (s : Course) : Event → Course → Prop
  | stutter (e : Event) (he : ∀ r, e ≠ .answer r) : Step s e s
  | register (id : String) (started : Instant) (request : CallRequest)
    (hn : s.exchange.calls.get? id = none) (hs : started ≤ s.clock) :
    Step s (.register id started request) (s.on fun x => x.register started id request)
  | turn (e : Event) (id : String) (c : SyncCall) (hc : s.exchange.calls.get? id = some c)
    (p : CallPhase) (ht : Turn s id c e p) : Step s e (s.turned id c p)
  | cancel (id : String) : Step s (.cancel id) { s with cancelled := id :: s.cancelled }
  | pass (span : Duration) : Step s (.pass span) { s with clock := s.clock.after span }
  | answer (r : WorkflowReturn) : Step s (.answer r) (s.on fun x => (x.deliver s.clock r).2)
  | keep (key : String) (data : Value) (ttl : Duration) :
    Step s (.keep key data ttl) (s.on fun x => x.storeData s.clock key data ttl)
  | read (key : String) : Step s (.read key) (s.on fun x => (x.retrieveData s.clock key).2)
  | discard (key : String) : Step s (.discard key) (s.on fun x => (x.deleteData key).2)

variable {s : Course} {id : String} {c : SyncCall}

/-- An operation that only changes the phase of a caller, and keeps it in the table, is a step. -/
theorem step_update {e : Event} (he : ∀ r, e ≠ .answer r) (f : SyncCall → SyncCall)
    (hf : ∀ c, s.exchange.calls.get? id = some c → f c = c ∨
      ∃ p, f c = { c with phase := p } ∧ (c.phase.isListed && !p.isListed) = false ∧
        Turn s id c e p) :
    Step s e (s.on fun x => x.update id f) := by
  cases hc : s.exchange.calls.get? id with
  | none =>
    simp only [on, Exchange.update_of_none hc]
    exact .stutter e he
  | some c =>
    obtain ⟨p, hp, hl, ht⟩ : ∃ p, f c = { c with phase := p } ∧
        (c.phase.isListed && !p.isListed) = false ∧ Turn s id c e p := by
      rcases hf c hc with h | h
      · exact ⟨c.phase, h, by simp, .stay e he⟩
      · exact h
    have h := Step.turn e id c hc p ht
    simp only [turned, on, hl, ← hp, Bool.false_eq_true, if_false] at h
    simpa only [on, Exchange.update_of_get? hc] using h

theorem step_dispatched (outcome : Except PlatformError Unit) :
    Step s (.dispatched id outcome) (s.on fun x => x.dispatched id outcome) := by
  refine step_update (by simp) _ fun c _ => ?_
  cases hp : c.phase with
  | dispatching =>
    cases outcome with
    | ok => exact .inr ⟨.waiting, by simp [SyncCall.dispatched, hp], rfl, .started hp⟩
    | error e =>
      exact .inr ⟨.closing (some (.error e)), by simp [SyncCall.dispatched, hp], rfl,
        .notStarted hp e⟩
  | _ => exact .inl (by simp [SyncCall.dispatched, hp])

theorem step_receive : Step s (.receive id) (s.on fun x => x.receive s.clock id) := by
  refine step_update (by simp) _ fun c _ => ?_
  cases hp : c.phase with
  | waiting =>
    cases hs : c.slot with
    | some r => exact .inr ⟨_, by simp [SyncCall.receive, hp, hs], rfl, .received hp r hs⟩
    | none =>
      cases hx : s.exchange.pending.get? id with
      | some entry =>
        exact .inl (by simp [SyncCall.receive, hp, hs, Dict.contains, hx])
      | none =>
        by_cases hd : c.deadline ≤ s.clock
        · exact .inr ⟨_, by simp [SyncCall.receive, hp, hs, Dict.contains, hx, hd], rfl,
            .cutOff hp hs hx hd⟩
        · exact .inr ⟨_, by simp [SyncCall.receive, hp, hs, Dict.contains, hx, hd], rfl,
            .lost hp hs hx hd⟩
  | _ => exact .inl (by simp [SyncCall.receive, hp])

theorem step_expire : Step s (.expire id) (s.on fun x => x.expire s.clock id) := by
  refine step_update (by simp) _ fun c _ => ?_
  cases hp : c.phase with
  | waiting =>
    by_cases hd : c.deadline ≤ s.clock
    · exact .inr ⟨_, by simp [SyncCall.expire, hp, hd], rfl, .timedOut hp hd⟩
    · exact .inl (by simp [SyncCall.expire, hp, hd])
  | _ => exact .inl (by simp [SyncCall.expire, hp])

theorem step_heed (hc : id ∈ s.cancelled) : Step s (.heed id) (s.on fun x => x.heed id) := by
  refine step_update (by simp) _ fun c _ => ?_
  cases hp : c.phase with
  | dispatching =>
    exact .inr ⟨_, by simp [SyncCall.heed, hp], rfl, .cancelled (.inl hp) hc⟩
  | waiting => exact .inr ⟨_, by simp [SyncCall.heed, hp], rfl, .cancelled (.inr hp) hc⟩
  | _ => exact .inl (by simp [SyncCall.heed, hp])

/-- Leaving the table is the one step of a caller that changes the table. -/
theorem step_unregister : Step s (.unregister id) (s.on fun x => x.unregister id) := by
  cases hc : s.exchange.calls.get? id with
  | none =>
    have : s.exchange.unregister id = s.exchange := by simp [Exchange.unregister, hc]
    simp only [on, this]
    exact .stutter _ (by simp)
  | some c =>
    cases hp : c.phase with
    | leaving why =>
      have h := Step.turn _ id c hc _ (.quit why hp)
      simpa [turned, on, Exchange.unregister, hc, hp, Exchange.update, Exchange.forget,
        SyncCall.unregister, CallPhase.isListed] using h
    | closing o =>
      have h := Step.turn _ id c hc _ (.delisted o hp)
      simpa [turned, on, Exchange.unregister, hc, hp, Exchange.update, Exchange.forget,
        SyncCall.unregister, CallPhase.isListed] using h
    | _ =>
      have : s.exchange.unregister id = s.exchange := by simp [Exchange.unregister, hc, hp]
      simp only [on, this]
      exact .stutter _ (by simp)

theorem step_conclude : Step s (.conclude id) (s.on fun x => x.conclude s.clock id) := by
  refine step_update (by simp) _ fun c _ => ?_
  cases hp : c.phase with
  | left why =>
    cases hs : c.slot with
    | some r => exact .inr ⟨_, by simp [SyncCall.conclude, hp, hs], rfl, .found why hp r hs⟩
    | none => exact .inr ⟨_, by simp [SyncCall.conclude, hp, hs], rfl, .missed why hp hs⟩
  | _ => exact .inl (by simp [SyncCall.conclude, hp])

theorem step_hangUp : Step s (.hangUp id) (s.on fun x => x.hangUp id) := by
  refine step_update (by simp) _ fun c _ => ?_
  cases hp : c.phase with
  | closed o => exact .inr ⟨_, by simp [SyncCall.hangUp, hp], rfl, .hungUp o hp⟩
  | _ => exact .inl (by simp [SyncCall.hangUp, hp])

theorem step_vanish : Step s (.vanish id) (s.on fun x => x.vanish id) := by
  refine step_update (by simp) _ fun c _ => ?_
  cases hp : c.phase with
  | dispatching => exact .inr ⟨_, by simp [SyncCall.vanish, hp], rfl, .vanished (.inl hp)⟩
  | waiting => exact .inr ⟨_, by simp [SyncCall.vanish, hp], rfl, .vanished (.inr hp)⟩
  | _ => exact .inl (by simp [SyncCall.vanish, hp])

/-- **Every event is a step.** After this nothing has to look into an operation again. -/
theorem step_spec (s : Course) (e : Event) : Step s e (s.step e) := by
  cases e with
  | register id started request =>
    simp only [step]
    split
    · rename_i h
      exact .register id started request (Option.isNone_iff_eq_none.mp h.1) h.2
    · exact .stutter _ (by simp)
  | dispatched id outcome => exact step_dispatched outcome
  | cancel id => exact .cancel id
  | receive id => exact step_receive
  | expire id => exact step_expire
  | heed id =>
    simp only [step]
    split
    · rename_i h
      exact step_heed h
    · exact .stutter _ (by simp)
  | unregister id => exact step_unregister
  | conclude id => exact step_conclude
  | hangUp id => exact step_hangUp
  | vanish id => exact step_vanish
  | answer r => exact .answer r
  | pass span => exact .pass span
  | keep key data ttl => exact .keep key data ttl
  | read key => exact .read key
  | discard key => exact .discard key

/-- Time never goes back. -/
theorem Step.clock_le {e : Event} {t : Course} (h : Step s e t) : s.clock ≤ t.clock := by
  cases h with
  | pass span => exact Instant.le_after _ span
  | _ => exact Instant.le_refl _

theorem Step.settings {e : Event} {t : Course} (h : Step s e t) :
    t.exchange.settings = s.exchange.settings := by
  cases h with
  | answer r => exact s.exchange.settings_deliver s.clock r
  | _ => rfl

/-- What a step does to the caller of a call. -/
inductive CallerStep (s : Course) (id : String) (e : Event) (t : Course) : Prop
  /-- There is no such call. -/
  | absent (hs : s.exchange.calls.get? id = none) (ht : t.exchange.calls.get? id = none)
  /-- The call begins. -/
  | begins (hs : s.exchange.calls.get? id = none) (started : Instant) (request : CallRequest)
    (he : e = .register id started request) (hle : started ≤ s.clock)
    (ht : t.exchange.calls.get? id =
      some { started, timeout := s.exchange.effectiveTimeout request.timeoutSeconds })
  /-- Something may be put into the slot, and the phase changes as the caller's own steps say. -/
  | goes (c : SyncCall) (hs : s.exchange.calls.get? id = some c) (slot : Option WorkflowReturn)
    (phase : CallPhase) (hp : phase = c.phase ∨ Turn s id c e phase)
    (ht : t.exchange.calls.get? id = some { c with slot, phase })

theorem callerStep_of_get?_eq {e : Event} {t : Course}
    (h : t.exchange.calls.get? id = s.exchange.calls.get? id) : CallerStep s id e t := by
  cases hc : s.exchange.calls.get? id with
  | none => exact .absent hc (h.trans hc)
  | some c => exact .goes c hc c.slot c.phase (.inl rfl) (h.trans hc)

theorem Step.caller {e : Event} {t : Course} (h : Step s e t) (id : String) :
    CallerStep s id e t := by
  cases h with
  | register id' started request hn hle =>
    by_cases hid : id = id'
    · obtain rfl := hid
      exact .begins hn started request rfl hle (by simp [on, Exchange.register])
    · exact callerStep_of_get?_eq (by simp [on, Exchange.register, hid])
  | turn e id' c hc p ht =>
    by_cases hid : id = id'
    · obtain rfl := hid
      exact .goes c hc c.slot p (.inr ht) (by rw [get?_calls_turned, if_pos rfl])
    · exact callerStep_of_get?_eq (by rw [get?_calls_turned, if_neg hid])
  | answer r =>
    obtain ⟨f, hf⟩ := s.exchange.get?_calls_deliver s.clock r id
    cases hc : s.exchange.calls.get? id with
    | none => exact .absent hc (by rw [on, hf, hc, Option.map_none])
    | some c => exact .goes c hc (f c) c.phase (.inl rfl) (by rw [on, hf, hc, Option.map_some])
  | _ => exact callerStep_of_get?_eq rfl

theorem settings_run (settings : PlatformSettings) (events : List Event) :
    (run settings events).exchange.settings = settings := by
  induction events using List.reverseRecOn with
  | nil => rfl
  | append_singleton events e ih => rw [run_concat, (step_spec _ e).settings, ih]

/-! ## What has happened -/

/-- At some point of the course an event came, and `p` held of it and of the state it came to. -/
def Occurs (settings : PlatformSettings) (p : Course → Event → Prop) (events : List Event) : Prop :=
  ∃ before e after, events = before ++ e :: after ∧ p (run settings before) e

theorem not_occurs_nil {settings : PlatformSettings} {p : Course → Event → Prop} :
    ¬ Occurs settings p [] := by
  rintro ⟨before, e, after, h, -⟩
  simp at h

theorem Occurs.exists_mem {settings : PlatformSettings} {p : Course → Event → Prop}
    {events : List Event} (h : Occurs settings p events) : ∃ e ∈ events, ∃ s, p s e := by
  obtain ⟨before, e, after, rfl, hp⟩ := h
  exact ⟨e, by simp, _, hp⟩

theorem occurs_concat {settings : PlatformSettings} {p : Course → Event → Prop}
    {events : List Event} {e : Event} :
    Occurs settings p (events ++ [e]) ↔ Occurs settings p events ∨ p (run settings events) e := by
  constructor
  · rintro ⟨before, e', after, h, hp⟩
    rcases List.eq_nil_or_concat after with rfl | ⟨after, last, rfl⟩
    · obtain ⟨rfl, he⟩ := List.append_inj' h rfl
      exact .inr (List.singleton_inj.mp he ▸ hp)
    · rw [List.concat_eq_append, ← List.cons_append, ← List.append_assoc] at h
      exact .inl ⟨before, e', after, (List.append_inj' h rfl).1, hp⟩
  · rintro (⟨before, e', after, rfl, hp⟩ | hp)
    · exact ⟨before, e', after ++ [e], by simp, hp⟩
    · exact ⟨events, e, [], rfl, hp⟩

/-! ## Calls and results to try things on -/

/-- A call that waits for at most five seconds. -/
def sampleCall : CallRequest where
  target := "billing"
  data := .null
  mode := .sync
  timeoutSeconds := some 5
  source := { workflowId := "orders", runId := "run-1" }

/-- A result of a call. -/
def sampleReturn (id text : String) : WorkflowReturn where
  callId := id
  data := .string text
  status := "success"
  returnedAt := default

/-! ## Being woken and going away -/

/-- The steps of a caller that is woken. -/
def poll (id : String) : List Event :=
  [.receive id, .expire id, .heed id, .unregister id, .conclude id, .hangUp id]

/-- **A caller that is woken takes these steps and no others.** So what holds of all courses holds
of callers that go on as far as they can. -/
theorem exchange_run_poll (settings : PlatformSettings) (events : List Event) (id : String) :
    (run settings (events ++ poll id)).exchange =
      (run settings events).exchange.resume (run settings events).clock
        (decide (id ∈ (run settings events).cancelled)) id := by
  rw [run_append]
  by_cases hc : id ∈ (run settings events).cancelled <;>
    simp [poll, step, on, hc, Exchange.resume]

/-- The steps of a caller that goes away. -/
def leave (id : String) : List Event := [.vanish id, .unregister id, .hangUp id]

theorem exchange_run_leave (settings : PlatformSettings) (events : List Event) (id : String) :
    (run settings (events ++ leave id)).exchange = (run settings events).exchange.drop id := by
  rw [run_append]
  rfl

end Course

end FlowEngine
