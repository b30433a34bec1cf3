import FlowEngine.Proofs.Exchange.Delivery

/-!
# The table of pending calls

The table holds a call from its beginning until its caller leaves or a result takes it out, and not
a moment longer. Six ways lead out of a call, and on each of them the caller takes its entry with
it.

From this follows that three errors never occur. A result could find a slot that is filled or gone,
and a caller could find its slot cut off although nothing has been put into it. The first two would
need an entry that outlives its slot or a delivery; the third would need an entry that is taken out
before the deadline by something other than a delivery.

What a caller reports about giving up is true: it reports that the time is over only once it is, and
a cancellation only after one.

## Main definitions

* `Course.OrderlyStarts`: the start of a workflow fails in the way that it is meant to.

## Main results

* `Course.pending_isSome_iff`: which calls have an entry.
* `Course.table_exact`: the same, and all that follows from it.
-/

namespace FlowEngine

namespace Course

variable {settings : PlatformSettings} {events : List Event}
variable {s : Course} {h : History} {id : String} {c : SyncCall} {r : WorkflowReturn}

/-- Whatever starts workflows reports its failures as such. -/
def OrderlyStarts (events : List Event) : Prop :=
  ∀ id err, .dispatched id (.error err) ∈ events →
    ∃ target reason, err = .triggerFailed target reason

/-! ### Who has an entry -/

/-- A call has an entry from its beginning until its caller leaves the table or it is answered. -/
theorem Sound.pending_isSome_iff (hs : Sound s h) :
    (s.exchange.pending.get? id).isSome ↔
      (∃ c, s.exchange.calls.get? id = some c ∧ c.phase.isListed) ∧
        (∀ r, h.delivered r → r.callId ≠ id) ∧ ¬ h.expired id := by
  constructor
  · intro hsome
    obtain ⟨entry, hx⟩ := Option.isSome_iff_exists.mp hsome
    obtain ⟨c, hc, hl, hn, -⟩ := hs.entry id entry hx
    refine ⟨⟨c, hc, hl⟩, fun r hr hid => ?_, fun hexp => ?_⟩
    · simp [hs.slot_of_delivered hr hid hc] at hn
    · obtain ⟨-, -, -, -, hnone⟩ := hs.expired id hexp
      simp [hx] at hnone
  · rintro ⟨⟨c, hc, hl⟩, hdelivered, hexpired⟩
    rw [Option.isSome_iff_ne_none]
    intro hx
    have hcaller := hs.caller id c hc
    rcases hcaller.consumed hl hx with hslot | hexp
    · obtain ⟨r, hr⟩ := Option.isSome_iff_exists.mp hslot
      exact hdelivered r (hcaller.slot r hr).2 (hcaller.slot r hr).1
    · exact hexpired hexp

theorem Sound.pending_eq_none (hs : Sound s h) (hc : s.exchange.calls.get? id = some c)
    (hl : c.phase.isListed = false) : s.exchange.pending.get? id = none := by
  rw [← Option.not_isSome_iff_eq_none, hs.pending_isSome_iff]
  rintro ⟨⟨c', hc', hl'⟩, -⟩
  obtain rfl := Option.some_inj.mp (hc.symm.trans hc')
  simp [hl] at hl'

/-! ### The errors that do not occur -/

/-- A caller that goes with an error could not start the called workflow or has given up for a
reason. -/
theorem excused_of_verdict? (hc : (run settings events).exchange.calls.get? id = some c)
    {err : PlatformError} (hv : c.phase.verdict? = some (.error err)) :
    .dispatched id (.error err) ∈ events ∨
      ∃ why, Excused (run settings events) id c why ∧ err = c.failure id why := by
  rcases (sound_run settings events).refused_of_verdict? hc hv with hf | ⟨-, why, hw, he⟩
  · exact .inl (StartFailed.mem hf)
  · exact .inr ⟨why, hw, he⟩

/-- A caller whose token is cancelled has been cancelled. -/
theorem cancel_mem_of_mem_cancelled (hc : id ∈ (run settings events).cancelled) :
    .cancel id ∈ events := by
  induction events using List.reverseRecOn with
  | nil => cases hc
  | append_singleton events e ih =>
    rw [run_concat] at hc
    rw [List.mem_append, List.mem_singleton]
    generalize ht : (run settings events).step e = t at hc
    have hstep := step_spec (run settings events) e
    rw [ht] at hstep
    cases hstep with
    | cancel id' =>
      rcases List.mem_cons.mp hc with rfl | hc
      · exact .inr rfl
      · exact .inl (ih hc)
    | _ => exact .inl (ih hc)

/-! ### The table -/

/-- **The table is exact.** In every course: the calls in the table are those that have begun, whose
callers have not left it and for which no result has been delivered or refused; so a caller that has
left it, with an outcome or without one, has no entry. A result that finds its call finds an empty
slot that is still there. Neither a result nor a caller is ever told that a delivery has failed. A
caller that goes because its time is over is past its deadline, and one that goes because it was
cancelled has been cancelled. -/
theorem table_exact (settings : PlatformSettings) (events : List Event)
    (hstarts : OrderlyStarts events) :
    (∀ id, ((run settings events).exchange.pending.get? id).isSome ↔
      (∃ c, (run settings events).exchange.calls.get? id = some c ∧ c.phase.isListed) ∧
        (∀ r, Delivered settings events r → r.callId ≠ id) ∧ ¬ Expired settings events id) ∧
    (∀ id entry, (run settings events).exchange.pending.get? id = some entry →
      ∃ c, (run settings events).exchange.calls.get? id = some c ∧ c.slot = none ∧
        c.phase.isListening ∧ entry.expiresAt = c.deadline) ∧
    (∀ r id reason, (run settings events).fate r ≠ .error (.deliveryFailed id reason)) ∧
    ∀ id c, (run settings events).exchange.calls.get? id = some c →
      (c.phase.isListed = false → (run settings events).exchange.pending.get? id = none) ∧
      (∀ id' reason, c.phase.verdict? ≠ some (.error (.deliveryFailed id' reason))) ∧
      (∀ id' seconds, c.phase.verdict? = some (.error (.timeout id' seconds)) →
        id' = id ∧ c.deadline ≤ (run settings events).clock) ∧
      (∀ id', c.phase.verdict? = some (.error (.cancelled id')) →
        id' = id ∧ .cancel id ∈ events) := by
  have hs := sound_run settings events
  refine ⟨fun id => hs.pending_isSome_iff, ?_, ?_, fun id c hc => ⟨hs.pending_eq_none hc, ?_⟩⟩
  · intro id entry hx
    obtain ⟨c, hc, hl, hn, hd⟩ := hs.entry id entry hx
    exact ⟨c, hc, hn, CallPhase.isListening_of_isListed hl, hd⟩
  · intro r id reason hr
    rcases hs.fate_cases r with ⟨-, hf⟩ | ⟨-, -, -, hf⟩ | ⟨-, -, -, hf⟩
    all_goals
      rw [hf] at hr
      cases hr
  -- A failure of the start is none of the three errors, so the caller has given up.
  have excused : ∀ err, c.phase.verdict? = some (.error err) →
      (∀ target reason, err ≠ .triggerFailed target reason) →
      ∃ why, Excused (run settings events) id c why ∧ err = c.failure id why := by
    intro err hv hne
    rcases excused_of_verdict? hc hv with hstart | hw
    · obtain ⟨target, reason, he⟩ := hstarts id err hstart
      exact absurd he (hne target reason)
    · exact hw
  refine ⟨?_, ?_, ?_⟩
  · intro id' reason hv
    obtain ⟨why, -, he⟩ := excused _ hv (by simp)
    cases why <;> cases he
  · intro id' seconds hv
    obtain ⟨why, hw, he⟩ := excused _ hv (by simp)
    cases why with
    | timedOut =>
      cases he
      exact ⟨rfl, hw⟩
    | cancelled => cases he
  · intro id' hv
    obtain ⟨why, hw, he⟩ := excused _ hv (by simp)
    cases why with
    | timedOut => cases he
    | cancelled =>
      cases he
      exact ⟨rfl, cancel_mem_of_mem_cancelled hw⟩

/-- Three calls that end without a result: one waits too long, the start of one fails, and one is
cancelled during its start. -/
def givenUp : List Event :=
  [.register "a" ⟨0⟩ sampleCall, .register "b" ⟨0⟩ sampleCall, .register "c" ⟨0⟩ sampleCall,
    .dispatched "a" (.ok ()), .dispatched "b" (.error (.triggerFailed "billing" "boom")),
    .cancel "c", .heed "c", .pass (.ofSeconds 5), .expire "a", .unregister "a", .unregister "b",
    .unregister "c", .conclude "a", .conclude "c"]

theorem table_exact_givenUp :
    OrderlyStarts givenUp ∧
      (run {} givenUp).exchange.pending.get? "b" = none ∧
      (∃ c, (run {} givenUp).exchange.calls.get? "a" = some c ∧
        c.phase.verdict? = some (.error (.timeout "a" 5)) ∧
        c.deadline ≤ (run {} givenUp).clock) ∧
      .cancel "c" ∈ givenUp := by
  have hstarts : OrderlyStarts givenUp := by
    intro id err h
    simp only [givenUp, List.mem_cons, Event.dispatched.injEq, List.not_mem_nil, reduceCtorEq,
      and_false, false_or, or_false, Except.error.injEq] at h
    exact ⟨_, _, h.2⟩
  obtain ⟨-, -, -, hcallers⟩ := table_exact {} givenUp hstarts
  exact ⟨hstarts, (hcallers "b" _ rfl).1 rfl,
    ⟨_, rfl, rfl, ((hcallers "a" _ rfl).2.2.1 "a" 5 rfl).2⟩, ((hcallers "c" _ rfl).2.2.2 "c" rfl).2⟩

end Course

end FlowEngine
