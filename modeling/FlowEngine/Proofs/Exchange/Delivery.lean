import FlowEngine.Proofs.Exchange.Invariant

/-!
# Deliveries and outcomes

A caller and a result meet at most once, and afterwards they agree on whether they have met. What a
result is told follows from the table alone, what a caller is told from its slot, and the relation
that every course keeps ties the two to each other.

The agreement has one gap. A caller whose called workflow could not be started ends with that
failure and never looks into its slot. A result that has come by then has been told that it is
delivered, and is lost. So the agreement is stated for calls whose start did not fail, and what is
true of the others is stated beside it.

## Main definitions

* `Course.Registered`: a call has begun.
* `Course.Completed`: a call has ended with some data and a status.
* `Course.DeliveredEarly`: a result has come before the start of the called workflow was over.

## Main results

* `Course.completed_iff_delivered`: a call completes with what has been delivered to it, a call that
  gives up has been delivered nothing, and what is delivered comes once and in time.
* `Course.completed_iff_not_startFailed`: what has been delivered is lost exactly if the start
  fails.
* `Course.not_completed_of_deliveredEarly`: and that can happen.
-/

namespace FlowEngine

/-! ## Callers on their own -/

namespace CallPhase

/-- What a caller that goes ends with. -/
def verdict? : CallPhase → Option (Except PlatformError CallResponse)
  | .closing outcome | .closed outcome | .gone outcome => outcome
  | _ => none

/-- Whether the caller has gone away before it had an outcome. -/
def isDropped : CallPhase → Bool
  | .closing none | .closed none | .gone none => true
  | _ => false

end CallPhase

/-- All that a caller does when it is woken. -/
def SyncCall.resume (now : Instant) (isCutOff cancelled : Bool) (id : String) (c : SyncCall) :
    SyncCall :=
  let c := (c.receive now id isCutOff).expire now
  let c := if cancelled then c.heed else c
  (c.unregister.conclude now id).hangUp

theorem Exchange.get?_calls_resume (x : Exchange) (now : Instant) (cancelled : Bool) (id : String) :
    (x.resume now cancelled id).calls.get? id =
      (x.calls.get? id).map (SyncCall.resume now (!x.pending.contains id) cancelled id) := by
  cases hc : x.calls.get? id <;> cases cancelled <;>
    simp [Exchange.resume, Exchange.receive, Exchange.expire, Exchange.heed, Exchange.conclude,
      Exchange.hangUp, SyncCall.resume, hc]

/-- A caller with a filled slot that is woken comes to its end. -/
theorem SyncCall.isSome_outcome?_resume {c : SyncCall} (now : Instant) (isCutOff : Bool)
    {cancelled : Bool} (id : String) (hs : c.slot.isSome) (hd : c.phase.isDropped = false)
    (hp : c.phase = .dispatching → cancelled) :
    (c.resume now isCutOff cancelled id).outcome?.isSome := by
  obtain ⟨r, hr⟩ := Option.isSome_iff_exists.mp hs
  -- Looking at the token changes nothing but before the start and while waiting.
  cases hphase : c.phase with
  | dispatching =>
    simp [resume, receive, expire, heed, unregister, conclude, hangUp, outcome?, hphase, hr,
      hp hphase]
  | waiting | leaving why | left why =>
    cases cancelled <;>
      simp [resume, receive, expire, heed, unregister, conclude, hangUp, outcome?, hphase, hr]
  | closing o | closed o | gone o =>
    cases o with
    | none => simp [CallPhase.isDropped, hphase] at hd
    | some o =>
      cases cancelled <;>
        simp [resume, receive, expire, heed, unregister, conclude, hangUp, outcome?, hphase]

namespace Course

/-- A call has begun under an identifier that was free. -/
def Registered (settings : PlatformSettings) (events : List Event) (id : String) (started : Instant)
    (request : CallRequest) : Prop :=
  Occurs settings
    (fun s e => e = .register id started request ∧ s.exchange.calls.get? id = none ∧
      started ≤ s.clock) events

/-- A call has ended with some data and a status. -/
def Completed (s : Course) (id : String) (data : Value) (status : String) : Prop :=
  ∃ duration, s.exchange.outcome? id = some (.ok {
    callId := id, status := .completed, data := some data, returnStatus := some status, duration })

variable {settings : PlatformSettings} {events : List Event}
variable {s : Course} {h : History} {id : String} {c : SyncCall} {r : WorkflowReturn}

/-! ## What a result is told -/

/-- What a result is told, by what it finds in the table. -/
theorem Sound.fate_cases (hs : Sound s h) (r : WorkflowReturn) :
    (s.exchange.pending.get? r.callId = none ∧ s.fate r = .ok .stored) ∨
      (∃ entry, s.exchange.pending.get? r.callId = some entry ∧ entry.expiresAt ≤ s.clock ∧
        s.fate r = .error (.callExpired r.callId)) ∨
      ∃ entry, s.exchange.pending.get? r.callId = some entry ∧ s.clock < entry.expiresAt ∧
        s.fate r = .ok .delivered := by
  cases hx : s.exchange.pending.get? r.callId with
  | none => exact .inl ⟨rfl, fate_of_none hx⟩
  | some entry =>
    by_cases he : entry.expiresAt ≤ s.clock
    · exact .inr (.inl ⟨entry, rfl, he, fate_of_expired hx he⟩)
    · exact .inr (.inr ⟨entry, rfl, Instant.not_le.mp he, hs.fate_of_open hx he⟩)

/-- A result that is kept has found no entry. -/
theorem Sound.pending_of_stored (hs : Sound s h) (hd : s.fate r = .ok .stored) :
    s.exchange.pending.get? r.callId = none := by
  rcases hs.fate_cases r with ⟨hx, -⟩ | ⟨entry, -, -, hf⟩ | ⟨entry, -, -, hf⟩
  · exact hx
  · simp [hf] at hd
  · simp [hf] at hd

/-- A result that is delivered has found its call before the deadline. -/
theorem Sound.caller_of_delivered (hs : Sound s h) (hd : s.fate r = .ok .delivered) :
    ∃ c, s.exchange.calls.get? r.callId = some c ∧ s.clock < c.deadline := by
  rcases hs.fate_cases r with ⟨-, hf⟩ | ⟨entry, -, -, hf⟩ | ⟨entry, hx, hlt, -⟩
  · simp [hf] at hd
  · simp [hf] at hd
  · obtain ⟨c, hc, -, -, heq⟩ := hs.entry _ entry hx
    exact ⟨c, hc, heq ▸ hlt⟩

/-- After a delivery every further result for the call is kept in the data store. -/
theorem Sound.fate_of_delivered (hs : Sound s h) {r' : WorkflowReturn} (hr : h.delivered r')
    (heq : r.callId = r'.callId) : s.fate r = .ok .stored := by
  apply fate_of_none
  cases hx : s.exchange.pending.get? r.callId with
  | none => rfl
  | some entry =>
    obtain ⟨c, hc, -, hn, -⟩ := hs.entry _ entry hx
    simp [hs.slot_of_delivered hr heq.symm hc] at hn

/-! ## How a call ends -/

theorem outcome?_eq_some_iff {outcome : Except PlatformError CallResponse} :
    s.exchange.outcome? id = some outcome ↔
      ∃ c, s.exchange.calls.get? id = some c ∧ c.phase = .gone (some outcome) := by
  simp only [Exchange.outcome?, Option.bind_eq_some_iff]
  refine exists_congr fun c => and_congr_right fun _ => ?_
  cases hp : c.phase <;> simp [SyncCall.outcome?, hp]

/-- A call that ends with a response hands on what has been delivered to it. -/
theorem Sound.delivered_of_outcome (hs : Sound s h) {response : CallResponse}
    (ho : s.exchange.outcome? id = some (.ok response)) :
    ∃ c r time, s.exchange.calls.get? id = some c ∧ h.delivered r ∧ r.callId = id ∧
      response = c.response time id r := by
  obtain ⟨c, hc, hp⟩ := outcome?_eq_some_iff.mp ho
  have hcaller := hs.caller id c hc
  have hphase := hcaller.phase
  rw [hp] at hphase
  obtain ⟨r, time, hslot, hresponse⟩ := hphase
  obtain ⟨hid, hd⟩ := hcaller.slot r hslot
  exact ⟨c, r, time, hc, hd, hid, hresponse⟩

/-- A caller that goes with an error could not start the called workflow, or has given up with an
empty slot. -/
theorem Sound.refused_of_verdict? (hs : Sound s h) (hc : s.exchange.calls.get? id = some c)
    {err : PlatformError} (hv : c.phase.verdict? = some (.error err)) : Refused s h id c err := by
  have hphase := (hs.caller id c hc).phase
  cases hp : c.phase with
  | closing o =>
    obtain rfl : o = some (.error err) := by simpa [CallPhase.verdict?, hp] using hv
    rw [hp] at hphase
    exact .inl hphase
  | closed o | gone o =>
    obtain rfl : o = some (.error err) := by simpa [CallPhase.verdict?, hp] using hv
    rw [hp] at hphase
    exact hphase
  | dispatching | waiting | leaving why | left why => simp [hp, CallPhase.verdict?] at hv

/-- A call that ends with an error could not start the called workflow, or has been delivered
nothing and had a reason to give up. -/
theorem Sound.refused_of_outcome (hs : Sound s h) {err : PlatformError}
    (ho : s.exchange.outcome? id = some (.error err)) :
    h.failed id err ∨ ∃ c why, s.exchange.calls.get? id = some c ∧
      (∀ r, h.delivered r → r.callId ≠ id) ∧ Excused s id c why ∧ err = c.failure id why := by
  obtain ⟨c, hc, hp⟩ := outcome?_eq_some_iff.mp ho
  rcases hs.refused_of_verdict? hc (by rw [hp, CallPhase.verdict?]) with hf | ⟨hn, why, hw, he⟩
  · exact .inl hf
  · refine .inr ⟨c, why, hc, fun r hr hid => ?_, hw, he⟩
    simp [hs.slot_of_delivered hr hid hc] at hn

/-- What a call completes with is what has been delivered. -/
theorem Sound.delivered_of_completed (hs : Sound s h) {data : Value} {status : String}
    (hc : Completed s id data status) :
    ∃ r, h.delivered r ∧ r.callId = id ∧ r.data = data ∧ r.status = status := by
  obtain ⟨duration, ho⟩ := hc
  obtain ⟨c, r, time, -, hd, hid, hresponse⟩ := hs.delivered_of_outcome ho
  simp only [SyncCall.response, CallResponse.mk.injEq, Option.some_inj] at hresponse
  obtain ⟨-, -, hdata, hstatus, -⟩ := hresponse
  exact ⟨r, hd, hid, hdata.symm, hstatus.symm⟩

/-- A call to which a result has been delivered completes with it, unless its start has failed. -/
theorem Sound.completed_of_delivered (hs : Sound s h) (hr : h.delivered r)
    {outcome : Except PlatformError CallResponse}
    (ho : s.exchange.outcome? r.callId = some outcome) :
    Completed s r.callId r.data r.status ∨ ∃ err, outcome = .error err ∧ h.failed r.callId err := by
  cases outcome with
  | ok response =>
    obtain ⟨c, r', time, hc, hr', hid, rfl⟩ := hs.delivered_of_outcome ho
    have hslot : c.slot = some r := hs.slot_of_delivered hr rfl hc
    rw [hs.slot_of_delivered hr' hid hc, Option.some_inj] at hslot
    obtain rfl := hslot
    exact .inl ⟨_, ho⟩
  | error err =>
    rcases hs.refused_of_outcome ho with hf | ⟨c, why, -, hnone, -⟩
    · exact .inr ⟨err, rfl, hf⟩
    · exact absurd rfl (hnone r hr)

/-! ## When and how often something is delivered -/

/-- A caller has begun with the call that it belongs to. -/
theorem registered_of_get? (hc : (run settings events).exchange.calls.get? id = some c) :
    ∃ request, Registered settings events id c.started request ∧
      c.timeout = (Exchange.new settings).effectiveTimeout request.timeoutSeconds := by
  induction events using List.reverseRecOn generalizing c with
  | nil => cases hc
  | append_singleton events e ih =>
    rw [run_concat] at hc
    cases (step_spec (run settings events) e).caller id with
    | absent _ ht => simp [ht] at hc
    | begins hn started request he hle ht =>
      obtain rfl := Option.some_inj.mp (ht.symm.trans hc)
      refine ⟨request, occurs_concat.mpr (.inr ⟨he, hn, hle⟩), ?_⟩
      simp [Exchange.effectiveTimeout, settings_run, Exchange.new]
    | goes c₀ hc₀ slot phase _ ht =>
      obtain rfl := Option.some_inj.mp (ht.symm.trans hc)
      obtain ⟨request, hr, htimeout⟩ := ih hc₀
      exact ⟨request, occurs_concat.mpr (.inl hr), htimeout⟩

/-- A result that is delivered comes after the call has begun and before its deadline. -/
theorem registered_of_delivered (hd : (run settings events).fate r = .ok .delivered) :
    ∃ started request, Registered settings events r.callId started request ∧
      (run settings events).clock <
        started.deadline ((Exchange.new settings).effectiveTimeout request.timeoutSeconds) := by
  obtain ⟨c, hc, hlt⟩ := (sound_run settings events).caller_of_delivered hd
  obtain ⟨request, hr, ht⟩ := registered_of_get? hc
  rw [SyncCall.deadline, ht] at hlt
  exact ⟨c.started, request, hr, hlt⟩

/-- Of two results for one call the later is not delivered if the earlier was. -/
theorem fate_append {before : List Event} {r r' : WorkflowReturn}
    (hd : (run settings before).fate r = .ok .delivered) (heq : r'.callId = r.callId)
    (mid : List Event) : (run settings (before ++ .answer r :: mid)).fate r' = .ok .stored := by
  have hr : Delivered settings (before ++ .answer r :: mid) r :=
    ⟨before, .answer r, mid, rfl, rfl, hd⟩
  exact (sound_run settings _).fate_of_delivered hr heq

theorem eq_nil_of_delivered {before mid rest after : List Event} {r r' : WorkflowReturn}
    (h : .answer r :: rest = mid ++ after) (heq : r'.callId = r.callId)
    (hd : (run settings before).fate r = .ok .delivered)
    (hd' : (run settings (before ++ mid)).fate r' = .ok .delivered) : mid = [] := by
  cases mid with
  | nil => rfl
  | cons e mid =>
    obtain ⟨rfl, -⟩ := List.cons_eq_cons.mp h
    rw [fate_append hd heq mid] at hd'
    cases hd'

theorem eq_of_delivered {before₁ before₂ after₁ after₂ : List Event} {r₁ r₂ : WorkflowReturn}
    (h : before₁ ++ .answer r₁ :: after₁ = before₂ ++ .answer r₂ :: after₂)
    (heq : r₁.callId = r₂.callId) (h₁ : (run settings before₁).fate r₁ = .ok .delivered)
    (h₂ : (run settings before₂).fate r₂ = .ok .delivered) : before₁ = before₂ := by
  rcases List.append_eq_append_iff.mp h with ⟨mid, hbefore, hrest⟩ | ⟨mid, hbefore, hrest⟩
  · rw [hbefore] at h₂
    rw [hbefore, eq_nil_of_delivered hrest heq.symm h₁ h₂, List.append_nil]
  · rw [hbefore] at h₁
    rw [hbefore, eq_nil_of_delivered hrest heq h₂ h₁, List.append_nil]

/-- **Callers and results agree.** In every course: a call whose start did not fail and that has
ended has completed with exactly what a result delivered to it, and if it has given up then no
result has been delivered to it; at most one result for a call is ever delivered; and it is
delivered after the call has begun and before its deadline. -/
theorem completed_iff_delivered (settings : PlatformSettings) (events : List Event) :
    (∀ id outcome, (run settings events).exchange.outcome? id = some outcome →
      (∀ err, ¬ StartFailed settings events id err) →
      (∀ data status, Completed (run settings events) id data status ↔
        ∃ r, Delivered settings events r ∧ r.callId = id ∧ r.data = data ∧ r.status = status) ∧
      ((∃ r, Delivered settings events r ∧ r.callId = id) ↔ ∃ response, outcome = .ok response) ∧
      ∀ err, outcome = .error err → err = .cancelled id ∨ ∃ seconds, err = .timeout id seconds) ∧
    (∀ before₁ r₁ after₁ before₂ r₂ after₂,
      events = before₁ ++ .answer r₁ :: after₁ → events = before₂ ++ .answer r₂ :: after₂ →
      r₁.callId = r₂.callId → (run settings before₁).fate r₁ = .ok .delivered →
      (run settings before₂).fate r₂ = .ok .delivered → before₁ = before₂) ∧
    (∀ before r after, events = before ++ .answer r :: after →
      (run settings before).fate r = .ok .delivered →
      ∃ started request, Registered settings before r.callId started request ∧
        (run settings before).clock <
          started.deadline ((Exchange.new settings).effectiveTimeout request.timeoutSeconds)) := by
  have hs := sound_run settings events
  refine ⟨fun id outcome ho hf =>
      ⟨fun data status => ⟨hs.delivered_of_completed, ?_⟩, ⟨?_, ?_⟩, ?_⟩,
    fun before₁ r₁ after₁ before₂ r₂ after₂ h₁ h₂ => eq_of_delivered (h₁.symm.trans h₂),
    fun before r after _ => registered_of_delivered⟩
  · rintro ⟨r, hr, rfl, rfl, rfl⟩
    rcases hs.completed_of_delivered hr ho with hc | ⟨err, -, hfailed⟩
    · exact hc
    · exact absurd hfailed (hf err)
  · rintro ⟨r, hr, rfl⟩
    rcases hs.completed_of_delivered hr ho with ⟨duration, hc⟩ | ⟨err, -, hfailed⟩
    · exact ⟨_, Option.some_inj.mp (ho.symm.trans hc)⟩
    · exact absurd hfailed (hf err)
  · rintro ⟨response, rfl⟩
    obtain ⟨c, r, time, -, hr, hid, -⟩ := hs.delivered_of_outcome ho
    exact ⟨r, hr, hid⟩
  · rintro err rfl
    rcases hs.refused_of_outcome ho with hfailed | ⟨c, why, -, -, -, rfl⟩
    · exact absurd hfailed (hf err)
    · cases why with
      | timedOut => exact .inr ⟨c.timeout.seconds, rfl⟩
      | cancelled => exact .inl rfl

/-- A call that is answered before its start is over, and then a second time. -/
def answeredTwice : List Event :=
  [.register "a" ⟨0⟩ sampleCall, .answer (sampleReturn "a" "first"), .dispatched "a" (.ok ()),
    .answer (sampleReturn "a" "second"), .receive "a", .unregister "a", .hangUp "a"]

theorem completed_iff_delivered_answeredTwice :
    Completed (run {} answeredTwice) "a" (.string "first") "success" ∧
      ∃ r, Delivered {} answeredTwice r ∧ r.callId = "a" ∧ r.data = .string "first" ∧
        r.status = "success" := by
  have hf : ∀ err, ¬ StartFailed {} answeredTwice "a" err := by
    intro err hf
    simpa [answeredTwice] using hf.mem
  have hc : Completed (run {} answeredTwice) "a" (.string "first") "success" := ⟨_, rfl⟩
  have h := ((completed_iff_delivered {} answeredTwice).1 "a" _ rfl hf).1
  exact ⟨hc, (h (.string "first") "success").mp hc⟩

/-! ## The gap

A failed start decides how its call ends, whatever is in the slot. -/

/-- The verdict of a caller stays what it is. -/
theorem Turn.verdict? {e : Event} {p : CallPhase} {o : Except PlatformError CallResponse}
    (ht : Turn s id c e p) (ho : c.phase.verdict? = some o) : p.verdict? = some o := by
  cases ht with
  | stay e he => exact ho
  | quit why hp | found why hp | missed why hp => simp [hp, CallPhase.verdict?] at ho
  | cancelled hp | vanished hp => rcases hp with hp | hp <;> simp [hp, CallPhase.verdict?] at ho
  | delisted o' hp | hungUp o' hp => simpa [hp, CallPhase.verdict?] using ho
  | started hp | notStarted hp | received hp | cutOff hp | lost hp | timedOut hp =>
    simp [hp, CallPhase.verdict?] at ho

/-- A caller that has learnt of a failed start ends with that failure. -/
theorem verdict?_of_startFailed {err : PlatformError} (hf : StartFailed settings events id err) :
    ∃ c, (run settings events).exchange.calls.get? id = some c ∧
      c.phase.verdict? = some (.error err) := by
  induction events using List.reverseRecOn with
  | nil => exact (not_occurs_nil hf).elim
  | append_singleton events e ih =>
    rw [run_concat]
    rcases occurs_concat.mp hf with hf | ⟨rfl, hp⟩
    · obtain ⟨c, hc, hv⟩ := ih hf
      cases (step_spec (run settings events) e).caller id with
      | absent hn | begins hn => simp [hn] at hc
      | goes c' hc' slot phase hp ht =>
        obtain rfl := Option.some_inj.mp (hc.symm.trans hc')
        refine ⟨_, ht, ?_⟩
        rcases hp with rfl | hturn
        · exact hv
        · exact hturn.verdict? hv
    · obtain ⟨c, hc, hp⟩ := Option.map_eq_some_iff.mp hp
      refine ⟨c.dispatched (.error err), ?_, by simp [SyncCall.dispatched, hp, CallPhase.verdict?]⟩
      simp [step, on, Exchange.dispatched, hc]

theorem outcome_of_startFailed {err : PlatformError} {outcome : Except PlatformError CallResponse}
    (hf : StartFailed settings events id err)
    (ho : (run settings events).exchange.outcome? id = some outcome) : outcome = .error err := by
  obtain ⟨c, hc, hv⟩ := verdict?_of_startFailed hf
  obtain ⟨c', hc', hp⟩ := outcome?_eq_some_iff.mp ho
  obtain rfl := Option.some_inj.mp (hc.symm.trans hc')
  rw [hp] at hv
  exact Option.some_inj.mp hv

/-- A caller with a filled slot that is woken comes to its end, unless it is still waiting for the
start of the called workflow. -/
theorem outcome_poll (hc : (run settings events).exchange.calls.get? id = some c)
    (hslot : c.slot.isSome) (hd : c.phase.isDropped = false)
    (hp : c.phase = .dispatching → id ∈ (run settings events).cancelled) :
    ∃ outcome, (run settings (events ++ poll id)).exchange.outcome? id = some outcome := by
  rw [exchange_run_poll, Exchange.outcome?, Exchange.get?_calls_resume, hc]
  apply Option.isSome_iff_exists.mp
  exact SyncCall.isSome_outcome?_resume _ _ _ hslot hd fun h => decide_eq_true (hp h)

/-- **What has been delivered is lost exactly if the start fails.** Once a result has been
delivered, a call that has ended has completed with it if no failure of the start has reached the
caller, and ends with that failure otherwise. A caller that is neither dropped nor still waiting for
the start comes to its end as soon as it is woken. -/
theorem completed_iff_not_startFailed (settings : PlatformSettings) (events : List Event)
    (r : WorkflowReturn) (hr : Delivered settings events r) :
    (∀ outcome, (run settings events).exchange.outcome? r.callId = some outcome →
      (Completed (run settings events) r.callId r.data r.status ↔
        ∀ err, ¬ StartFailed settings events r.callId err) ∧
      ∀ err, outcome = .error err ↔ StartFailed settings events r.callId err) ∧
    ∃ c, (run settings events).exchange.calls.get? r.callId = some c ∧
      (c.phase.isDropped = false →
        (c.phase = .dispatching → r.callId ∈ (run settings events).cancelled) →
        ∃ outcome,
          (run settings (events ++ poll r.callId)).exchange.outcome? r.callId = some outcome) := by
  have hs := sound_run settings events
  refine ⟨fun outcome ho => ⟨⟨?_, ?_⟩, fun err => ⟨?_, fun hf => outcome_of_startFailed hf ho⟩⟩, ?_⟩
  · rintro ⟨duration, hc⟩ err hf
    cases outcome_of_startFailed hf hc
  · intro hf
    rcases hs.completed_of_delivered hr ho with hc | ⟨err, -, hfailed⟩
    · exact hc
    · exact absurd hfailed (hf err)
  · rintro rfl
    rcases hs.completed_of_delivered hr ho with ⟨duration, hc⟩ | ⟨err', heq, hfailed⟩
    · cases ho.symm.trans hc
    · cases heq
      exact hfailed
  · obtain ⟨c, hc, hslot⟩ := hs.delivered r hr
    exact ⟨c, hc, outcome_poll hc (by simp [hslot])⟩

/-- A call that is answered before its start is over, and whose start then fails. -/
def answeredInVain : List Event :=
  [.register "a" ⟨0⟩ sampleCall, .answer (sampleReturn "a" "early"),
    .dispatched "a" (.error (.triggerFailed "billing" "boom")), .unregister "a", .hangUp "a"]

theorem completed_iff_not_startFailed_answeredInVain :
    Delivered {} answeredInVain (sampleReturn "a" "early") ∧
      StartFailed {} answeredInVain "a" (.triggerFailed "billing" "boom") ∧
      ¬ Completed (run {} answeredInVain) "a" (.string "early") "success" := by
  have hd : Delivered {} answeredInVain (sampleReturn "a" "early") :=
    ⟨[.register "a" ⟨0⟩ sampleCall], _, _, rfl, rfl, rfl⟩
  have h := (completed_iff_not_startFailed {} answeredInVain _ hd).1 _ rfl
  have hf : StartFailed {} answeredInVain "a" (.triggerFailed "billing" "boom") :=
    (h.2 (.triggerFailed "billing" "boom")).mp rfl
  exact ⟨hd, hf, fun hc => h.1.mp hc _ hf⟩

/-- A result has been delivered while the called workflow was being started. -/
def DeliveredEarly (settings : PlatformSettings) (events : List Event) (r : WorkflowReturn) :
    Prop :=
  Occurs settings
    (fun s e => e = .answer r ∧ s.fate r = .ok .delivered ∧ s.phase? r.callId = some .dispatching)
    events

/-- So what is delivered early is not always what the call ends with. -/
theorem not_completed_of_deliveredEarly :
    ¬ ∀ (settings : PlatformSettings) (events : List Event) (r : WorkflowReturn),
      DeliveredEarly settings events r →
      ∀ outcome, (run settings events).exchange.outcome? r.callId = some outcome →
        Completed (run settings events) r.callId r.data r.status := by
  intro h
  have hearly : DeliveredEarly {} answeredInVain (sampleReturn "a" "early") :=
    ⟨[.register "a" ⟨0⟩ sampleCall], _, _, rfl, rfl, rfl, rfl⟩
  obtain ⟨duration, hc⟩ := h {} answeredInVain _ hearly
    (.error (.triggerFailed "billing" "boom")) rfl
  have ho : (run {} answeredInVain).exchange.outcome? "a" =
    some (.error (.triggerFailed "billing" "boom")) := rfl
  cases ho.symm.trans hc

end Course

end FlowEngine
