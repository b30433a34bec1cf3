import FlowEngine.Proofs.Exchange.Delivery
import FlowEngine.Value.Path

/-!
# The fate of a result

A result that arrives is handed to its caller, refused since its call has expired, or kept in the
data store. Which of the three it is can be read off the table, and each of them leaves a mark that
stays: what is kept can be read for as long as the store keeps it, what is handed over or refused
leaves the data store as it was, and a call for which a result was refused has none to wait for.

## What can disturb a kept result

The data store has one entry for each key, and a result is kept under a key of its own call. So a
kept result can be written over by a later result for the same call, or by a caller of the data
store that uses the very key; reading it removes it only once it has expired. `Course.Overwrites`
lists these events, and `Course.Step.kept` says that there are no others.

## Main definitions

* `Course.keptFor`: how long a result that is kept can be read.
* `Course.Overwrites`, `Course.Undisturbed`: what can disturb a kept result.

## Main results

* `Course.Step.kept`: a kept result outlasts every other event.
* `Course.fate_exact`: every result has exactly one fate, and what follows from each.
-/

namespace FlowEngine

theorem returnKey_inj {a b : String} : returnKey a = returnKey b ↔ a = b :=
  String.append_right_inj "workflow_return:"

/-- A kept result tells for which call it is, how it went and what it says. -/
theorem WorkflowReturn.child?_toValue (r : WorkflowReturn) :
    r.toValue.child? "call_id" = some (.string r.callId) ∧
      r.toValue.child? "status" = some (.string r.status) ∧
      r.toValue.child? "data" = some r.data := by
  simp [toValue, Value.ofMembers, Value.child?, Entries.normalize, Entries.find?_put]

namespace Course

variable {settings : PlatformSettings} {events : List Event}
variable {s t : Course} {h : History} {id : String} {c : SyncCall} {r : WorkflowReturn}

/-! ### What is kept -/

/-- How long a result that is kept from an instant on can be read. -/
def keptFor (settings : PlatformSettings) (now : Instant) : Duration :=
  (DataStore.new settings.storeTtl).lifetime now settings.storeTtl

theorem Step.ttl_store {e : Event} (h : Step s e t) :
    t.exchange.store.ttl = s.exchange.store.ttl := by
  cases h with
  | answer r => exact s.exchange.ttl_deliver s.clock r
  | read key => exact s.exchange.store.ttl_retrieve s.clock key
  | _ => rfl

theorem ttl_store_run (settings : PlatformSettings) (events : List Event) :
    (run settings events).exchange.store.ttl = (DataStore.new settings.storeTtl).ttl := by
  induction events using List.reverseRecOn with
  | nil => rfl
  | append_singleton events e ih => rw [run_concat, (step_spec _ e).ttl_store, ih]

/-- A result without an entry in the table is kept under the key of its call. -/
theorem get?_store_answer (hx : (run settings events).exchange.pending.get? r.callId = none) :
    (run settings (events ++ [.answer r])).exchange.store.entries.get? (returnKey r.callId) =
      some ⟨r.toValue, (run settings events).clock.after
        (keptFor settings (run settings events).clock)⟩ := by
  rw [run_concat]
  change ((run settings events).exchange.deliver _ r).2.store.entries.get? _ = _
  rw [Exchange.deliver_of_none hx, DataStore.get?_store, if_pos rfl, settings_run,
    DataStore.lifetime_congr (ttl_store_run settings events), keptFor]

/-! ### What stays kept -/

/-- The event puts something else, or nothing, in the place of a kept result. -/
def Overwrites (s : Course) (id : String) (e : Event) : Prop :=
  (∃ data ttl, e = .keep (returnKey id) data ttl) ∨ e = .discard (returnKey id) ∨
    ∃ r, e = .answer r ∧ r.callId = id ∧ s.fate r = .ok .stored

/-- None of the events that come later puts anything in the place of a kept result. -/
def Undisturbed (settings : PlatformSettings) (before after : List Event) (id : String) : Prop :=
  ∀ mid e rest, after = mid ++ e :: rest → ¬ Overwrites (run settings (before ++ mid)) id e

theorem undisturbed_concat {before after : List Event} {e : Event}
    (h : Undisturbed settings before (after ++ [e]) id) :
    Undisturbed settings before after id ∧ ¬ Overwrites (run settings (before ++ after)) id e := by
  refine ⟨fun mid e' rest heq => h mid e' (rest ++ [e]) (by simp [heq]), h after e [] rfl⟩

/-- **A kept result outlasts every other event**, as long as it has not expired. -/
theorem Step.kept {e : Event} {entry : StoreEntry} (h : Step s e t)
    (hk : s.exchange.store.entries.get? (returnKey id) = some entry)
    (hlive : s.clock < entry.expiresAt) (hno : ¬ Overwrites s id e) :
    t.exchange.store.entries.get? (returnKey id) = some entry := by
  cases h with
  | keep key data ttl =>
    have hne : returnKey id ≠ key := by
      rintro rfl
      exact hno (.inl ⟨data, ttl, rfl⟩)
    change (s.exchange.store.store s.clock key data ttl).2.entries.get? _ = _
    rw [DataStore.get?_store, if_neg hne, hk]
  | read key =>
    change (s.exchange.store.retrieve s.clock key).2.entries.get? _ = _
    by_cases hkey : returnKey id = key
    · rw [← hkey, DataStore.retrieve_of_live hk hlive, hk]
    · rw [DataStore.get?_retrieve_of_ne _ _ hkey, hk]
  | discard key =>
    have hne : returnKey id ≠ key := by
      rintro rfl
      exact hno (.inr (.inl rfl))
    change (s.exchange.store.delete key).2.entries.get? _ = _
    rw [DataStore.get?_delete, if_neg hne, hk]
  | answer r =>
    change (s.exchange.deliver s.clock r).2.store.entries.get? _ = _
    cases hx : s.exchange.pending.get? r.callId with
    | none =>
      have hne : returnKey id ≠ returnKey r.callId := by
        intro heq
        exact hno (.inr (.inr ⟨r, rfl, (returnKey_inj.mp heq).symm, fate_of_none hx⟩))
      rw [Exchange.deliver_of_none hx, DataStore.get?_store, if_neg hne, hk]
    | some entry' => rw [Exchange.store_deliver_of_get? hx, hk]
  | stutter | register | turn | cancel | pass => exact hk

/-- The same over any number of events. The clock at the end bounds it at every moment before. -/
theorem kept_run {before after : List Event} {entry : StoreEntry}
    (hk : (run settings before).exchange.store.entries.get? (returnKey id) = some entry)
    (hlive : (run settings (before ++ after)).clock < entry.expiresAt)
    (hno : Undisturbed settings before after id) :
    (run settings (before ++ after)).exchange.store.entries.get? (returnKey id) = some entry := by
  induction after using List.reverseRecOn with
  | nil => rwa [List.append_nil]
  | append_singleton after e ih =>
    obtain ⟨hno, he⟩ := undisturbed_concat hno
    rw [← List.append_assoc, run_concat] at hlive ⊢
    have hstep := step_spec (run settings (before ++ after)) e
    have hlive' := Instant.lt_of_le_of_lt hstep.clock_le hlive
    exact hstep.kept (ih hlive' hno) hlive' he

theorem retrieveReturn_of_kept {entry : StoreEntry}
    (hk : s.exchange.store.entries.get? (returnKey id) = some entry)
    (hlive : s.clock < entry.expiresAt) :
    (s.exchange.retrieveReturn s.clock id).1 = .ok entry.data := by
  rw [Exchange.retrieveReturn, Exchange.retrieveData, DataStore.retrieve_of_live hk hlive]
  rfl

/-! ### What is refused -/

/-- A call for which a result was refused completes no more, and whatever else comes for it is
kept. -/
theorem Sound.of_expired (hs : Sound s h) (hx : h.expired id) :
    (∀ response, s.exchange.outcome? id ≠ some (.ok response)) ∧
      ∀ r, r.callId = id → s.fate r = .ok .stored := by
  obtain ⟨c, hc, hn, -, hnone⟩ := hs.expired id hx
  constructor
  · intro response ho
    obtain ⟨-, r, -, -, hr, hid, -⟩ := hs.delivered_of_outcome ho
    simp [hs.slot_of_delivered hr hid hc] at hn
  · rintro r rfl
    exact fate_of_none hnone

/-! ### The fates -/

/-- **Every result has exactly one fate.** In every course, whatever comes before and after: a
result is kept if its call is not in the table, refused if the call is past its deadline, and
delivered otherwise. A result that is kept is what is read for its call for as long as the store
keeps it, unless one of the few events comes that put something in its place. One that is delivered
or refused changes no entry of the store. After a refusal the call completes no more and further
results for it are kept. -/
theorem fate_exact (settings : PlatformSettings) (before : List Event) (r : WorkflowReturn) :
    (((run settings before).exchange.pending.get? r.callId = none ∧
        (run settings before).fate r = .ok .stored) ∨
      (∃ entry, (run settings before).exchange.pending.get? r.callId = some entry ∧
        entry.expiresAt ≤ (run settings before).clock ∧
        (run settings before).fate r = .error (.callExpired r.callId)) ∨
      ∃ entry, (run settings before).exchange.pending.get? r.callId = some entry ∧
        (run settings before).clock < entry.expiresAt ∧
        (run settings before).fate r = .ok .delivered) ∧
    ((run settings before).fate r = .ok .stored → ∀ after,
      Undisturbed settings (before ++ [.answer r]) after r.callId →
      (run settings (before ++ .answer r :: after)).clock <
        (run settings before).clock.after (keptFor settings (run settings before).clock) →
      ∃ v, ((run settings (before ++ .answer r :: after)).exchange.retrieveReturn
          (run settings (before ++ .answer r :: after)).clock r.callId).1 = .ok v ∧
        v.child? "call_id" = some (.string r.callId) ∧
        v.child? "status" = some (.string r.status) ∧ v.child? "data" = some r.data) ∧
    ((run settings before).fate r ≠ .ok .stored →
      (run settings (before ++ [.answer r])).exchange.store =
        (run settings before).exchange.store) ∧
    ((run settings before).fate r = .error (.callExpired r.callId) → ∀ after,
      (∀ response, (run settings (before ++ .answer r :: after)).exchange.outcome? r.callId ≠
        some (.ok response)) ∧
      ∀ r', r'.callId = r.callId →
        (run settings (before ++ .answer r :: after)).fate r' = .ok .stored) := by
  have hs := sound_run settings before
  refine ⟨hs.fate_cases r, ?_, ?_, ?_⟩
  · intro hstored after hno hlive
    rw [List.append_cons] at hlive ⊢
    have hkept := kept_run (get?_store_answer (hs.pending_of_stored hstored)) hlive hno
    exact ⟨r.toValue, retrieveReturn_of_kept hkept hlive, r.child?_toValue⟩
  · intro hne
    rw [run_concat]
    rcases hs.fate_cases r with ⟨-, hf⟩ | ⟨entry, hx, -⟩ | ⟨entry, hx, -⟩
    · exact absurd hf hne
    · exact Exchange.store_deliver_of_get? hx
    · exact Exchange.store_deliver_of_get? hx
  · intro hrefused after
    exact (sound_run settings _).of_expired
      ⟨before, .answer r, after, rfl, r, rfl, rfl, hrefused⟩

/-- A call that waits too long, and a result that comes after the deadline. -/
def answeredLate : List Event :=
  [.register "a" ⟨0⟩ sampleCall, .dispatched "a" (.ok ()), .pass (.ofSeconds 5),
    .answer (sampleReturn "a" "late")]

theorem fate_exact_answeredLate :
    (∀ r, r.callId = "a" → (run {} answeredLate).fate r = .ok .stored) ∧
      ∃ v, ((run {} (answeredLate ++ [.answer (sampleReturn "a" "again"),
          .pass (.ofSeconds 60)])).exchange.retrieveReturn ⟨65 * 1000000000⟩ "a").1 = .ok v ∧
        v.child? "data" = some (.string "again") := by
  have hstored := ((fate_exact {} (answeredLate.take 3) (sampleReturn "a" "late")).2.2.2 rfl []).2
  have hno : Undisturbed {} (answeredLate ++ [.answer (sampleReturn "a" "again")])
      [.pass (.ofSeconds 60)] "a" := by
    intro mid e rest heq hover
    have he : e ∈ [Event.pass (.ofSeconds 60)] := by simp [heq]
    rw [List.mem_singleton] at he
    simp [Overwrites, he] at hover
  obtain ⟨v, hv, -, -, hdata⟩ := (fate_exact {} answeredLate (sampleReturn "a" "again")).2.1
    (hstored _ rfl) [.pass (.ofSeconds 60)] hno (by decide)
  exact ⟨hstored, v, hv, hdata⟩

end Course

end FlowEngine
