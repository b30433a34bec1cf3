import FlowEngine.Proofs.Exchange.Course

/-!
# What every course of an exchange keeps

Four things race for one entry of the table and one slot: the delivery of a result, the deadline, a
cancellation, and further results for the same call. That nothing is lost between them rests on one
relation between the table, the slots, the phases of the callers and what results have been told
before. This file states that relation and shows that no step breaks it.

## The relation

* An entry of the table belongs to a caller that has not left the table and whose slot is empty.
* A caller that has not left the table but has no entry has been answered: its slot is filled, or a
  result came after its deadline.
* A slot is filled exactly by the result that was told that it is delivered.
* An outcome is the result in the slot, or the failure of the start, or, with an empty slot, the
  reason for which the caller gave up.

The second clause is the reason for which a caller never finds its slot cut off before its
deadline, and the first for which a result never finds a slot that cannot take it.

## What has been told

The past enters through a `History` only: which results have been delivered, for which calls one
was refused, and which starts have failed. `History.after` says how one event extends it, and
`historyOf` that this is what has occurred in a course.

## Main definitions

* `Course.History`, `Course.Delivered`, `Course.Expired`, `Course.StartFailed`
* `Course.Sound`: the relation.

## Main results

* `Course.Turn.phaseSound`: a step of a caller leads to a phase that is accounted for.
* `Course.Sound.step`: a step keeps the relation.
* `Course.sound_run`: every course has it.
-/

namespace FlowEngine

namespace Course

/-- What results have been told, and which starts of workflows have failed. -/
structure History where
  /-- The result has been handed over. -/
  delivered : WorkflowReturn → Prop
  /-- A result for the call has been refused, since the call had expired. -/
  expired : String → Prop
  /-- The start of the called workflow has failed. -/
  failed : String → PlatformError → Prop

/-- One more event. -/
def History.after (h : History) (s : Course) (e : Event) : History where
  delivered r := h.delivered r ∨ (e = .answer r ∧ s.fate r = .ok .delivered)
  expired id :=
    h.expired id ∨ ∃ r, r.callId = id ∧ e = .answer r ∧ s.fate r = .error (.callExpired id)
  failed id err :=
    h.failed id err ∨ (e = .dispatched id (.error err) ∧ s.phase? id = some .dispatching)

/-- A result has been told that it is delivered. -/
def Delivered (settings : PlatformSettings) (events : List Event) (r : WorkflowReturn) : Prop :=
  Occurs settings (fun s e => e = .answer r ∧ s.fate r = .ok .delivered) events

/-- A result has been told that its call has expired. -/
def Expired (settings : PlatformSettings) (events : List Event) (id : String) : Prop :=
  Occurs settings
    (fun s e => ∃ r, r.callId = id ∧ e = .answer r ∧ s.fate r = .error (.callExpired id)) events

/-- The start of the called workflow has failed while the caller was waiting for it. -/
def StartFailed (settings : PlatformSettings) (events : List Event) (id : String)
    (err : PlatformError) : Prop :=
  Occurs settings
    (fun s e => e = .dispatched id (.error err) ∧ s.phase? id = some .dispatching) events

theorem StartFailed.mem {settings : PlatformSettings} {events : List Event} {id : String}
    {err : PlatformError} (h : StartFailed settings events id err) :
    .dispatched id (.error err) ∈ events := by
  obtain ⟨e, he, s, rfl, -⟩ := h.exists_mem
  exact he

/-- What has happened in a course. -/
def historyOf (settings : PlatformSettings) (events : List Event) : History where
  delivered := Delivered settings events
  expired := Expired settings events
  failed := StartFailed settings events

theorem historyOf_concat (settings : PlatformSettings) (events : List Event) (e : Event) :
    historyOf settings (events ++ [e]) =
      (historyOf settings events).after (run settings events) e := by
  simp only [historyOf, History.after, History.mk.injEq]
  refine ⟨?_, ?_, ?_⟩
  · funext r
    exact propext occurs_concat
  · funext id
    exact propext occurs_concat
  · funext id err
    exact propext occurs_concat

/-! ## The relation -/

/-- The caller has a reason to give up. -/
def Excused (s : Course) (id : String) (c : SyncCall) : Abandonment → Prop
  | .timedOut => c.deadline ≤ s.clock
  | .cancelled => id ∈ s.cancelled

/-- The response hands on what is in the slot. -/
def Answered (id : String) (c : SyncCall) (response : CallResponse) : Prop :=
  ∃ r time, c.slot = some r ∧ response = c.response time id r

/-- The error is a failure of the start, or the caller has given up with an empty slot. -/
def Refused (s : Course) (h : History) (id : String) (c : SyncCall) (e : PlatformError) : Prop :=
  h.failed id e ∨ (c.slot = none ∧ ∃ why, Excused s id c why ∧ e = c.failure id why)

/-- What a phase says about the past. A caller that still stands in the table can only have failed
to start the called workflow: what it decides about its slot it decides after it has left. -/
def PhaseSound (s : Course) (h : History) (id : String) (c : SyncCall) : CallPhase → Prop
  | .dispatching | .waiting => True
  | .leaving why | .left why => Excused s id c why
  | .closing (some (.error e)) => h.failed id e
  | .closed (some (.error e)) | .gone (some (.error e)) => Refused s h id c e
  | .closing (some (.ok response)) | .closed (some (.ok response))
  | .gone (some (.ok response)) => Answered id c response
  | .closing none | .closed none | .gone none => True

/-- What holds of every caller. -/
structure CallerSound (s : Course) (h : History) (id : String) (c : SyncCall) : Prop where
  /-- The call began in the past. -/
  started_le : c.started ≤ s.clock
  /-- What is in the slot has been delivered to this call. -/
  slot : ∀ r, c.slot = some r → r.callId = id ∧ h.delivered r
  /-- A caller without an entry that has not left the table has been answered. -/
  consumed : c.phase.isListed → s.exchange.pending.get? id = none → c.slot.isSome ∨ h.expired id
  /-- The phase is accounted for. -/
  phase : PhaseSound s h id c c.phase

/-- What holds of every exchange. -/
structure Sound (s : Course) (h : History) : Prop where
  caller : ∀ id c, s.exchange.calls.get? id = some c → CallerSound s h id c
  /-- Whoever has an entry stands in the table and has an empty slot. -/
  entry : ∀ id entry, s.exchange.pending.get? id = some entry →
    ∃ c, s.exchange.calls.get? id = some c ∧ c.phase.isListed ∧ c.slot = none ∧
      entry.expiresAt = c.deadline
  /-- What has been delivered is in the slot of its call. -/
  delivered : ∀ r, h.delivered r →
    ∃ c, s.exchange.calls.get? r.callId = some c ∧ c.slot = some r
  /-- A call for which a result was refused is past its deadline, and will not be answered. -/
  expired : ∀ id, h.expired id →
    ∃ c, s.exchange.calls.get? id = some c ∧ c.slot = none ∧ c.deadline ≤ s.clock ∧
      s.exchange.pending.get? id = none

variable {s t : Course} {h h' : History} {id : String} {c : SyncCall}

/-- What has been delivered is in the slot of whoever is its caller. -/
theorem Sound.slot_of_delivered {r : WorkflowReturn} (hs : Sound s h) (hr : h.delivered r)
    (hid : r.callId = id) (hc : s.exchange.calls.get? id = some c) : c.slot = some r := by
  obtain ⟨c', hc', hslot⟩ := hs.delivered r hr
  rw [hid, hc, Option.some_inj] at hc'
  rwa [hc']

/-- A result that finds its call in time is delivered: the slot can take it. -/
theorem Sound.fate_of_open {r : WorkflowReturn} {entry : PendingCall} (hs : Sound s h)
    (hx : s.exchange.pending.get? r.callId = some entry) (he : ¬ entry.expiresAt ≤ s.clock) :
    s.fate r = .ok .delivered := by
  obtain ⟨c, hc, hl, hn, -⟩ := hs.entry _ entry hx
  rw [fate, Exchange.deliver_of_open hx he hc hn (CallPhase.isListening_of_isListed hl)]

theorem Excused.mono {why : Abandonment} (he : Excused s id c why) (hclock : s.clock ≤ t.clock)
    (hcancelled : ∀ x ∈ s.cancelled, x ∈ t.cancelled) : Excused t id c why := by
  cases why with
  | timedOut => exact Instant.le_trans he hclock
  | cancelled => exact hcancelled id he

theorem PhaseSound.mono {p : CallPhase} (hp : PhaseSound s h id c p) (hclock : s.clock ≤ t.clock)
    (hcancelled : ∀ x ∈ s.cancelled, x ∈ t.cancelled)
    (hfailed : ∀ id e, h.failed id e → h'.failed id e) : PhaseSound t h' id c p := by
  have refused : ∀ e, Refused s h id c e → Refused t h' id c e := by
    rintro e (hf | ⟨hs, why, hw, he⟩)
    · exact .inl (hfailed id e hf)
    · exact .inr ⟨hs, why, hw.mono hclock hcancelled, he⟩
  match p, hp with
  | .dispatching, _ | .waiting, _ => trivial
  | .leaving why, hp | .left why, hp => exact Excused.mono hp hclock hcancelled
  | .closing (some (.error e)), hp => exact hfailed id e hp
  | .closed (some (.error e)), hp | .gone (some (.error e)), hp => exact refused e hp
  | .closing (some (.ok response)), hp | .closed (some (.ok response)), hp
  | .gone (some (.ok response)), hp => exact hp
  | .closing none, _ | .closed none, _ | .gone none, _ => trivial

theorem CallerSound.mono (hc : CallerSound s h id c) (hclock : s.clock ≤ t.clock)
    (hcancelled : ∀ x ∈ s.cancelled, x ∈ t.cancelled)
    (hpending : t.exchange.pending.get? id = s.exchange.pending.get? id)
    (hdelivered : ∀ r, h.delivered r → h'.delivered r)
    (hexpired : ∀ id, h.expired id → h'.expired id)
    (hfailed : ∀ id e, h.failed id e → h'.failed id e) : CallerSound t h' id c where
  started_le := Instant.le_trans hc.started_le hclock
  slot r hr := ⟨(hc.slot r hr).1, hdelivered r (hc.slot r hr).2⟩
  consumed hl hx := (hc.consumed hl (hpending ▸ hx)).imp_right (hexpired id)
  phase := hc.phase.mono hclock hcancelled hfailed

/-- A step that changes neither callers nor table keeps the relation. -/
theorem Sound.frame (hs : Sound s h) (hcalls : t.exchange.calls = s.exchange.calls)
    (hpending : t.exchange.pending = s.exchange.pending) (hclock : s.clock ≤ t.clock)
    (hcancelled : ∀ x ∈ s.cancelled, x ∈ t.cancelled)
    (hdelivered : ∀ r, h'.delivered r ↔ h.delivered r)
    (hexpired : ∀ id, h'.expired id ↔ h.expired id)
    (hfailed : ∀ id e, h.failed id e → h'.failed id e) : Sound t h' where
  caller id c hc := (hs.caller id c (hcalls ▸ hc)).mono hclock hcancelled (by rw [hpending])
    (fun r => (hdelivered r).mpr) (fun id => (hexpired id).mpr) hfailed
  entry id entry he := by
    rw [hcalls]
    exact hs.entry id entry (hpending ▸ he)
  delivered r hr := by
    rw [hcalls]
    exact hs.delivered r ((hdelivered r).mp hr)
  expired id hx := by
    rw [hcalls, hpending]
    obtain ⟨c, hc, hn, hd, hp⟩ := hs.expired id ((hexpired id).mp hx)
    exact ⟨c, hc, hn, Instant.le_trans hd hclock, hp⟩

/-! ### Events other than results

They extend the history by failed starts at most. -/

theorem delivered_after_iff {e : Event} (he : ∀ r, e ≠ .answer r) (r : WorkflowReturn) :
    (h.after s e).delivered r ↔ h.delivered r := by
  simp [History.after, he r]

theorem expired_after_iff {e : Event} (he : ∀ r, e ≠ .answer r) (id : String) :
    (h.after s e).expired id ↔ h.expired id := by
  simp only [History.after, or_iff_left_iff_imp]
  rintro ⟨r, -, hr, -⟩
  exact absurd hr (he r)

theorem failed_after {e : Event} {err : PlatformError} (hf : h.failed id err) :
    (h.after s e).failed id err := .inl hf

/-! ### A step of a caller -/

/-- **A step of a caller leads to a phase that is accounted for.** The only outcome that would not
be is that of a slot found cut off before the deadline: its caller has been answered, so either the
slot is filled or the deadline is over. -/
theorem Turn.phaseSound {e : Event} {p : CallPhase} (ht : Turn s id c e p) (hs : Sound s h)
    (hc : s.exchange.calls.get? id = some c) : PhaseSound s (h.after s e) id c p := by
  have hcaller := hs.caller id c hc
  have hphase : PhaseSound s (h.after s e) id c c.phase :=
    hcaller.phase.mono (Instant.le_refl _) (fun _ hx => hx) fun _ _ => failed_after
  cases ht with
  | stay e he => exact hphase
  | started hp => trivial
  | notStarted hp err =>
    exact .inr ⟨rfl, by simp [phase?, hc, hp]⟩
  | received hp r hr => exact ⟨r, s.clock, hr, rfl⟩
  | cutOff hp hn hx hd => exact hd
  | lost hp hn hx hd =>
    rcases hcaller.consumed (by simp [hp, CallPhase.isListed]) hx with hsome | hexp
    · simp [hn] at hsome
    · obtain ⟨c', hc', -, hd', -⟩ := hs.expired id hexp
      rw [hc, Option.some_inj] at hc'
      exact absurd (hc' ▸ hd') hd
  | timedOut hp hd => exact hd
  | cancelled hp hc => exact hc
  | quit why hp =>
    rw [hp] at hphase
    exact hphase
  | delisted o hp =>
    rw [hp] at hphase
    rcases o with _ | err | response
    · trivial
    · exact .inl hphase
    · exact hphase
  | found why hp r hr => exact ⟨r, s.clock, hr, rfl⟩
  | missed why hp hn =>
    rw [hp] at hphase
    exact .inr ⟨hn, why, hphase, rfl⟩
  | hungUp o hp =>
    rw [hp] at hphase
    rcases o with _ | err | response
    · trivial
    · exact hphase
    · exact hphase
  | vanished hp => trivial

/-- What a phase says depends on the slot and the deadline of its caller alone. -/
theorem PhaseSound.with_phase {p q : CallPhase} (hp : PhaseSound s h id c p) :
    PhaseSound s h id { c with phase := q } p := hp

theorem Sound.turn {e : Event} {p : CallPhase} (hs : Sound s h)
    (hc : s.exchange.calls.get? id = some c) (ht : Turn s id c e p) :
    Sound (s.turned id c p) (h.after s e) where
  caller k c' hk := by
    rw [get?_calls_turned] at hk
    have hpending := get?_pending_turned s id c p k
    split at hk
    · rename_i heq
      obtain rfl := heq
      obtain rfl := Option.some_inj.mp hk
      have hcaller := hs.caller k c hc
      refine ⟨hcaller.started_le, fun r hr => ?_, fun hl hx => ?_, ?_⟩
      · exact ⟨(hcaller.slot r hr).1, .inl (hcaller.slot r hr).2⟩
      · simp only [hpending, show p.isListed = true from hl] at hx
        exact (hcaller.consumed (ht.isListed_of_isListed hl) (by simpa using hx)).imp_right .inl
      · exact ((ht.phaseSound hs hc).mono (Instant.le_refl _) (fun _ hx => hx)
          fun _ _ hf => hf).with_phase
    · rename_i hne
      exact (hs.caller k c' hk).mono (Instant.le_refl _) (fun _ hx => hx) (by simp [hpending, hne])
        (fun _ => .inl) (fun _ => .inl) (fun _ _ => .inl)
  entry k entry hk := by
    rw [get?_pending_turned] at hk
    split at hk
    · cases hk
    · rename_i hstays
      obtain ⟨c', hc', hl, hn, hd⟩ := hs.entry k entry hk
      by_cases heq : k = id
      · obtain rfl := heq
        obtain rfl : c = c' := Option.some_inj.mp (hc.symm.trans hc')
        refine ⟨{ c with phase := p }, by simp [get?_calls_turned], ?_, hn, hd⟩
        simpa [hl] using hstays
      · exact ⟨c', by simp [get?_calls_turned, heq, hc'], hl, hn, hd⟩
  delivered r hr := by
    obtain ⟨c', hc', hslot⟩ := hs.delivered r ((delivered_after_iff ht.ne_answer r).mp hr)
    rw [get?_calls_turned]
    split
    · rename_i heq
      rw [heq, hc, Option.some_inj] at hc'
      exact ⟨_, rfl, hc' ▸ hslot⟩
    · exact ⟨c', hc', hslot⟩
  expired k hk := by
    obtain ⟨c', hc', hn, hd, hx⟩ := hs.expired k ((expired_after_iff ht.ne_answer k).mp hk)
    have hx' : (s.turned id c p).exchange.pending.get? k = none := by
      rw [get?_pending_turned, hx, ite_self]
    rw [get?_calls_turned]
    split
    · rename_i heq
      rw [heq, hc, Option.some_inj] at hc'
      exact ⟨_, rfl, hc' ▸ hn, hc' ▸ hd, hx'⟩
    · exact ⟨c', hc', hn, hd, hx'⟩

/-! ### A call begins -/

theorem Sound.register {started : Instant} {request : CallRequest} (hs : Sound s h)
    (hn : s.exchange.calls.get? id = none) (hle : started ≤ s.clock) :
    Sound (s.on fun x => x.register started id request)
      (h.after s (.register id started request)) where
  caller k c hk := by
    simp only [on, Exchange.register, Dict.get?_insert] at hk
    split at hk
    · rename_i heq
      obtain rfl := Option.some_inj.mp hk
      refine ⟨hle, by simp, fun _ hx => ?_, trivial⟩
      simp [on, Exchange.register, heq] at hx
    · rename_i hne
      exact (hs.caller k c hk).mono (Instant.le_refl _) (fun _ hx => hx)
        (by simp [on, Exchange.register, hne]) (fun _ => .inl) (fun _ => .inl) (fun _ _ => .inl)
  entry k entry hk := by
    simp only [on, Exchange.register, Dict.get?_insert] at hk ⊢
    split at hk
    · rename_i heq
      obtain rfl := Option.some_inj.mp hk
      exact ⟨_, if_pos heq, rfl, rfl, rfl⟩
    · rename_i hne
      obtain ⟨c, hc, hl⟩ := hs.entry k entry hk
      exact ⟨c, by rw [if_neg hne, hc], hl⟩
  delivered r hr := by
    obtain ⟨c, hc, hslot⟩ := hs.delivered r ((delivered_after_iff (by simp) r).mp hr)
    have hne : r.callId ≠ id := fun heq => by simp [heq, hn] at hc
    exact ⟨c, by simp [on, Exchange.register, hne, hc], hslot⟩
  expired k hk := by
    obtain ⟨c, hc, hslot, hd, hx⟩ := hs.expired k ((expired_after_iff (by simp) k).mp hk)
    have hne : k ≠ id := fun heq => by simp [heq, hn] at hc
    exact ⟨c, by simp [on, Exchange.register, hne, hc], hslot, hd,
      by simp [on, Exchange.register, hne, hx]⟩

/-! ### A result arrives -/

/-- A result that is neither delivered nor refused extends no history. -/
theorem Sound.answer_of_none {r : WorkflowReturn} (hs : Sound s h)
    (hx : s.exchange.pending.get? r.callId = none) :
    Sound (s.on fun x => (x.deliver s.clock r).2) (h.after s (.answer r)) := by
  have hfate : s.fate r = .ok .stored := fate_of_none hx
  change Sound (s.on fun _ => (s.exchange.deliver s.clock r).2) _
  rw [Exchange.deliver_of_none hx]
  refine hs.frame rfl rfl (Instant.le_refl _) (fun _ hc => hc) (fun r' => ?_) (fun id => ?_)
    fun _ _ => .inl
  · simp only [History.after, Event.answer.injEq, or_iff_left_iff_imp]
    rintro ⟨rfl, hd⟩
    simp [hfate] at hd
  · simp only [History.after, Event.answer.injEq, or_iff_left_iff_imp]
    rintro ⟨r', -, rfl, hd⟩
    simp [hfate] at hd

/-- A result for a call past its deadline takes the call out of the table for good. -/
theorem Sound.answer_of_expired {r : WorkflowReturn} {entry : PendingCall} (hs : Sound s h)
    (hx : s.exchange.pending.get? r.callId = some entry) (he : entry.expiresAt ≤ s.clock) :
    Sound (s.on fun x => (x.deliver s.clock r).2) (h.after s (.answer r)) := by
  have hfate : s.fate r = .error (.callExpired r.callId) := fate_of_expired hx he
  change Sound (s.on fun _ => (s.exchange.deliver s.clock r).2) _
  rw [Exchange.deliver_of_expired hx he]
  have hgrows : ∀ id, h.expired id → (h.after s (.answer r)).expired id := fun _ => .inl
  constructor
  · intro k c hk
    have hcaller := hs.caller k c hk
    by_cases heq : k = r.callId
    · refine ⟨hcaller.started_le, fun r' hr => ?_, fun _ _ => ?_, ?_⟩
      · exact ⟨(hcaller.slot r' hr).1, .inl (hcaller.slot r' hr).2⟩
      · exact .inr (.inr ⟨r, heq.symm, rfl, heq ▸ hfate⟩)
      · exact hcaller.phase.mono (Instant.le_refl _) (fun _ hx => hx) fun _ _ => .inl
    · exact hcaller.mono (Instant.le_refl _) (fun _ hx => hx)
        (by simp [on, Exchange.forget, heq]) (fun _ => .inl) hgrows (fun _ _ => .inl)
  · intro k entry' hk
    simp only [on, Exchange.forget, Dict.get?_erase] at hk
    split at hk
    · cases hk
    · exact hs.entry k entry' hk
  · rintro r' (hr | ⟨hr, hd⟩)
    · exact hs.delivered r' hr
    · obtain rfl := Event.answer.inj hr
      simp [hfate] at hd
  · rintro k (hk | ⟨r', rfl, hr, -⟩)
    · obtain ⟨c, hc, hn, hd, hp⟩ := hs.expired k hk
      exact ⟨c, hc, hn, hd, by simp [on, Exchange.forget, hp]⟩
    · obtain rfl := Event.answer.inj hr
      obtain ⟨c, hc, -, hn, hd⟩ := hs.entry _ entry hx
      exact ⟨c, hc, hn, hd ▸ he, by simp [on, Exchange.forget]⟩

/-- A caller that still stands in the table has decided nothing about its slot, so what its phase
says stays true when the slot is filled. -/
theorem PhaseSound.fill {r : WorkflowReturn} (hp : PhaseSound s h id c c.phase)
    (hl : c.phase.isListed) (hn : c.slot = none) :
    PhaseSound s h id { c with slot := some r } c.phase := by
  match hphase : c.phase, hp with
  | .dispatching, _ | .waiting, _ => trivial
  | .leaving .timedOut, hp | .leaving .cancelled, hp => exact hp
  | .closing none, _ => trivial
  | .closing (some (.error e)), hp => exact hp
  | .closing (some (.ok response)), ⟨r', _, hr, _⟩ => simp [hn] at hr
  | .left why, _ | .closed o, _ | .gone o, _ => simp [hphase, CallPhase.isListed] at hl

/-- A result for any other call in the table fills the slot of its caller, which can take it. -/
theorem Sound.answer_of_open {r : WorkflowReturn} {entry : PendingCall} (hs : Sound s h)
    (hx : s.exchange.pending.get? r.callId = some entry) (he : ¬ entry.expiresAt ≤ s.clock) :
    Sound (s.on fun x => (x.deliver s.clock r).2) (h.after s (.answer r)) := by
  obtain ⟨c, hc, hl, hn, hd⟩ := hs.entry _ entry hx
  have hdeliver := Exchange.deliver_of_open hx he hc hn (CallPhase.isListening_of_isListed hl)
  have hfate : s.fate r = .ok .delivered := hs.fate_of_open hx he
  change Sound (s.on fun _ => (s.exchange.deliver s.clock r).2) _
  rw [hdeliver]
  constructor
  · intro k c' hk
    simp only [on, Dict.get?_insert] at hk
    split at hk
    · rename_i heq
      obtain rfl := Option.some_inj.mp hk
      obtain rfl := heq
      have hcaller := hs.caller r.callId c hc
      refine ⟨hcaller.started_le, fun r' hr => ?_, fun _ _ => .inl rfl, ?_⟩
      · obtain rfl := Option.some_inj.mp hr
        exact ⟨rfl, .inr ⟨rfl, hfate⟩⟩
      · exact (hcaller.phase.fill hl hn).mono (Instant.le_refl _) (fun _ hx => hx) fun _ _ => .inl
    · rename_i hne
      exact (hs.caller k c' hk).mono (Instant.le_refl _) (fun _ hx => hx) (by simp [on, hne])
        (fun _ => .inl) (fun _ => .inl) (fun _ _ => .inl)
  · intro k entry' hk
    simp only [on, Dict.get?_erase] at hk
    split at hk
    · cases hk
    · rename_i hne
      obtain ⟨c', hc', hl'⟩ := hs.entry k entry' hk
      exact ⟨c', by simp [on, hne, hc'], hl'⟩
  · rintro r' (hr | ⟨hr, -⟩)
    · obtain ⟨c', hc', hslot⟩ := hs.delivered r' hr
      have hne : r'.callId ≠ r.callId := by
        intro heq
        simp [hs.slot_of_delivered hr heq hc] at hn
      exact ⟨c', by simp [on, hne, hc'], hslot⟩
    · obtain rfl := Event.answer.inj hr
      exact ⟨{ c with slot := some r }, by simp [on], rfl⟩
  · rintro k (hk | ⟨r', -, hr, hexp⟩)
    · obtain ⟨c', hc', hn', hd', hp⟩ := hs.expired k hk
      have hne : k ≠ r.callId := fun heq => by simp [heq, hx] at hp
      exact ⟨c', by simp [on, hne, hc'], hn', hd', by simp [on, hp]⟩
    · obtain rfl := Event.answer.inj hr
      simp [hfate] at hexp

/-! ### Every step, and every course -/

/-- **A step keeps the relation.** -/
theorem Sound.step {e : Event} (hs : Sound s h) (ht : Step s e t) : Sound t (h.after s e) := by
  have quiet : ∀ {e : Event} {t : Course}, (∀ r, e ≠ .answer r) →
      t.exchange.calls = s.exchange.calls → t.exchange.pending = s.exchange.pending →
      s.clock ≤ t.clock → (∀ x ∈ s.cancelled, x ∈ t.cancelled) → Sound t (h.after s e) :=
    fun he hcalls hpending hclock hcancelled => hs.frame hcalls hpending hclock hcancelled
      (delivered_after_iff he) (expired_after_iff he) fun _ _ => .inl
  cases ht with
  | stutter e he => exact quiet he rfl rfl (Instant.le_refl _) fun _ hx => hx
  | register id started request hn hle => exact hs.register hn hle
  | turn e id c hc p ht => exact hs.turn hc ht
  | cancel id =>
    exact quiet (by simp) rfl rfl (Instant.le_refl _) fun _ hx => List.mem_cons_of_mem id hx
  | pass span => exact quiet (by simp) rfl rfl (Instant.le_after _ span) fun _ hx => hx
  | keep | read | discard => exact quiet (by simp) rfl rfl (Instant.le_refl _) fun _ hx => hx
  | answer r =>
    cases hx : s.exchange.pending.get? r.callId with
    | none => exact hs.answer_of_none hx
    | some entry =>
      by_cases he : entry.expiresAt ≤ s.clock
      · exact hs.answer_of_expired hx he
      · exact hs.answer_of_open hx he

theorem sound_start (settings : PlatformSettings) :
    Sound (start settings) (historyOf settings []) where
  caller id c hc := by cases hc
  entry id entry he := by cases he
  delivered r hr := by
    simp only [historyOf, Delivered] at hr
    exact (not_occurs_nil hr).elim
  expired id hx := by
    simp only [historyOf, Expired] at hx
    exact (not_occurs_nil hx).elim

/-- **Every course has the relation**, with what has occurred in it as its history. -/
theorem sound_run (settings : PlatformSettings) (events : List Event) :
    Sound (run settings events) (historyOf settings events) := by
  induction events using List.reverseRecOn with
  | nil => exact sound_start settings
  | append_singleton events e ih =>
    rw [run_concat, historyOf_concat]
    exact ih.step (step_spec _ e)

end Course

end FlowEngine
