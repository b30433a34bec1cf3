import FlowEngine.Platform.Store
import FlowEngine.Proofs.Storage.Latest

/-!
# The data store and its history

Whether a value has expired is found out only when it is read, so what the store holds at a moment
depends on what has been read before. The history decides all of it: the live record of a key is
that of the last value kept under it, unless a removal of the key came later or a reading that said
it had expired. Every answer follows from the live records and the clock.

The history that counts is a transcript, commands with their answers, since a reading ends a record
only if it says so. The calls may come at any instants; nothing here needs the clock to go forward.

## Main definitions

* `DataStore.Command`, `DataStore.execute`, `DataStore.transcript`: the operations with their
  answers, one after the other.
* `DataStore.expiry`: until when a value can be read.
* `DataStore.Live`: the live record of a key.
* `DataStore.Answers`: what a command answers.

## Main results

* `DataStore.get?_after`: the store holds the live records.
* `DataStore.filter_transcript`: the calls on one key answer as they would alone.
* `DataStore.answers_of_transcript`: all answers.
-/

namespace FlowEngine

namespace DataStore

/-! ## Calls -/

/-- An operation with its arguments. -/
inductive Command where
  | store (key : String) (data : Value) (ttl : Duration)
  | retrieve (key : String)
  | delete (key : String)
  | size

/-- What an operation returns. -/
inductive Answer where
  /-- The instant until which a value is kept. -/
  | stored (expiresAt : Instant)
  | read (result : Except StoreError Value)
  | deleted (had : Bool)
  | counted (n : Nat)

/-- The key that an operation is about. -/
def Command.key? : Command → Option String
  | .store key _ _ | .retrieve key | .delete key => some key
  | .size => none

/-- Executes a command at an instant. -/
def execute (s : DataStore) (now : Instant) : Command → Answer × DataStore
  | .store key data ttl => ((s.store now key data ttl).map .stored id)
  | .retrieve key => (s.retrieve now key).map .read id
  | .delete key => (s.delete key).map .deleted id
  | .size => (.counted s.size, s)

/-- A command with the instant at which it is given. -/
structure Call where
  now : Instant
  command : Command

/-- A call with its answer. -/
structure Use extends Call where
  answer : Answer

/-- One more call. -/
def call (past : List Use × DataStore) (c : Call) : List Use × DataStore :=
  (past.1 ++ [⟨c, (past.2.execute c.now c.command).1⟩], (past.2.execute c.now c.command).2)

/-- Calls on a new store with a default span. -/
def run (ttl : Duration) (calls : List Call) : List Use × DataStore := calls.foldl call ([], new ttl)

/-- What calls on a new store are answered. -/
def transcript (ttl : Duration) (calls : List Call) : List Use := (run ttl calls).1

/-- The store after the calls. -/
def after (ttl : Duration) (calls : List Call) : DataStore := (run ttl calls).2

variable {ttl : Duration}

@[simp] theorem after_concat (calls : List Call) (c : Call) :
    after ttl (calls ++ [c]) = ((after ttl calls).execute c.now c.command).2 := by
  simp [after, run, call]

@[simp] theorem transcript_concat (calls : List Call) (c : Call) :
    transcript ttl (calls ++ [c]) =
      transcript ttl calls ++ [⟨c, ((after ttl calls).execute c.now c.command).1⟩] := by
  simp [transcript, after, run, call]

/-! ## Live records -/

/-- How long a value is kept: for the span that is asked for; if that is empty, for the default one;
and if that is empty as well, for a day. -/
def span (default ttl : Duration) : Duration :=
  if ttl.nanos ≠ 0 then ttl
  else if default.nanos ≠ 0 then default
  else .ofSeconds (24 * 60 * 60)

/-- The clock can hold the instant. -/
def Fits (t : Instant) : Prop := t.nanos < Instant.horizonSeconds * 1000000000

instance (t : Instant) : Decidable (Fits t) := inferInstanceAs (Decidable (_ < _))

/-- Until when a value that is kept now can be read. -/
def expiry (default ttl : Duration) (now : Instant) : Instant :=
  if Fits (now.after (span default ttl)) then now.after (span default ttl)
  else now.after Instant.farFuture

/-- A use keeps a record under a key. -/
def Use.Keeps (default : Duration) (key : String) (u : Use) (record : StoreEntry) : Prop :=
  ∃ ttl, u.command = .store key record.data ttl ∧ record.expiresAt = expiry default ttl u.now

/-- A use ends the record of a key: another value is kept, the key is removed, or a reading says
that the record has expired. -/
def Use.Ends (key : String) (u : Use) : Prop :=
  match u.command with
  | .store k _ _ | .delete k => k = key
  | .retrieve k => k = key ∧ u.answer = .read (.error (.expired key))
  | .size => False

/-- The live record of a key: the last one that was kept under it and not ended since. -/
def Live (default : Duration) (uses : List Use) (key : String) (record : StoreEntry) : Prop :=
  Latest (Use.Keeps default key) (Use.Ends key) uses record

theorem ttl_execute (s : DataStore) (now : Instant) (command : Command) :
    (s.execute now command).2.ttl = s.ttl := by
  cases command <;> simp [execute, delete]

@[simp] theorem ttl_after (calls : List Call) : (after ttl calls).ttl = (new ttl).ttl := by
  induction calls using List.reverseRecOn with
  | nil => rfl
  | append_singleton calls c ih => rw [after_concat, ttl_execute, ih]

theorem fst_store_eq_expiry {s : DataStore} {default : Duration} (hs : s.ttl = (new default).ttl)
    (now : Instant) (key : String) (data : Value) (ttl : Duration) :
    (s.store now key data ttl).1 = expiry default ttl now := by
  have hspan : s.effectiveTtl ttl = span default ttl := by
    rw [effectiveTtl, hs, new, span, defaultTtl]
    by_cases ht : ttl.nanos = 0 <;> by_cases hd : default.nanos = 0 <;>
      simp [Duration.isZero, ht, hd]
  rw [expiry, ← hspan]
  rfl

/-- What one call makes of the entry of a key: it keeps another one, ends it, or leaves it. -/
theorem get?_execute_eq_some_iff {s : DataStore} (hs : s.ttl = (new ttl).ttl) (c : Call)
    (key : String) (record : StoreEntry) :
    (s.execute c.now c.command).2.entries.get? key = some record ↔
      Use.Keeps ttl key ⟨c, (s.execute c.now c.command).1⟩ record ∨
        ¬ Use.Ends key ⟨c, (s.execute c.now c.command).1⟩ ∧ s.entries.get? key = some record := by
  obtain ⟨now, command⟩ := c
  cases command with
  | store k data span =>
    have hget : (s.store now k data span).2.entries.get? key =
        if key = k then some ⟨data, expiry ttl span now⟩ else s.entries.get? key := by
      rw [← fst_store_eq_expiry hs now k data span]
      exact Dict.get?_insert s.entries k _ key
    simp only [execute, Prod.map_snd, id, hget]
    by_cases hk : key = k
    · subst hk
      obtain ⟨data', expiresAt⟩ := record
      simp [Use.Keeps, Use.Ends, eq_comm]
    · simp [Use.Keeps, Use.Ends, hk, Ne.symm hk]
  | retrieve k =>
    by_cases hk : k = key
    · subst hk
      cases hentry : s.entries.get? k with
      | none => simp [execute, retrieve, hentry, Use.Keeps]
      | some entry =>
        by_cases hexpired : entry.expiresAt ≤ now <;>
          simp [execute, retrieve, hentry, hexpired, Use.Keeps, Use.Ends]
    · simp [execute, s.get?_retrieve_of_ne now (Ne.symm hk), Use.Keeps, Use.Ends, hk]
  | delete k =>
    by_cases hk : k = key
    · simp [execute, get?_delete, Use.Keeps, Use.Ends, hk]
    · simp [execute, get?_delete, Use.Keeps, Use.Ends, hk, Ne.symm hk]
  | size => simp [execute, Use.Keeps, Use.Ends]

/-- The store holds the live records. -/
theorem get?_after (calls : List Call) (key : String) (record : StoreEntry) :
    (after ttl calls).entries.get? key = some record ↔
      Live ttl (transcript ttl calls) key record := by
  induction calls using List.reverseRecOn with
  | nil => exact iff_of_false (by simp [after, run, new]) (not_latest_nil record)
  | append_singleton calls c ih =>
    rw [after_concat, transcript_concat, get?_execute_eq_some_iff (ttl_after calls), ih]
    exact (latest_concat _ _ record).symm

/-! ## Answers -/

/-- What a command answers at an instant if `live` says which records are live. -/
def Answers (default : Duration) (live : String → StoreEntry → Prop) (now : Instant) :
    Command → Answer → Prop
  | .store _ _ ttl, a => a = .stored (expiry default ttl now)
  | .retrieve key, a =>
    (∃ record, live key record ∧ now < record.expiresAt ∧ a = .read (.ok record.data)) ∨
      (∃ record, live key record ∧ record.expiresAt ≤ now ∧ a = .read (.error (.expired key))) ∨
      (∀ record, ¬ live key record) ∧ a = .read (.error (.notFound key))
  | .delete key, a => ∃ had, a = .deleted had ∧ (had ↔ ∃ record, live key record)
  | .size, a => ∃ keys : List String, a = .counted keys.length ∧ keys.Nodup ∧
      ∀ key, key ∈ keys ↔ ∃ record, live key record

theorem answers_execute {s : DataStore} (hs : s.ttl = (new ttl).ttl) (now : Instant)
    (command : Command) :
    Answers ttl (fun key record => s.entries.get? key = some record) now command
      (s.execute now command).1 := by
  cases command with
  | store key data span => exact congrArg Answer.stored (fst_store_eq_expiry hs now key data span)
  | retrieve key =>
    cases hentry : s.entries.get? key with
    | none => exact .inr (.inr ⟨by simp [hentry], by simp [execute, retrieve, hentry]⟩)
    | some entry =>
      by_cases hexpired : entry.expiresAt ≤ now
      · exact .inr (.inl ⟨entry, hentry, hexpired, by simp [execute, retrieve, hentry, hexpired]⟩)
      · exact .inl ⟨entry, hentry, Instant.not_le.1 hexpired,
          by simp [execute, retrieve, hentry, hexpired]⟩
  | delete key => exact ⟨_, rfl, Option.isSome_iff_exists⟩
  | size => exact ⟨s.entries.keys, by simp [execute, size, Dict.size, Dict.keys],
      s.entries.nodup_keys, fun key => s.entries.mem_keys_iff⟩

/-- The instant until which a value is kept fits the clock, unless the clock is near its end. -/
theorem fits_expiry {default : Duration} {now : Instant}
    (h : Fits (now.after Instant.farFuture)) (ttl : Duration) : Fits (expiry default ttl now) := by
  rw [expiry]
  split
  · assumption
  · exact h

/-- Once a reading has said that the record of a key has expired, the key has no live record until
another value is kept under it. -/
theorem not_live_of_expired {before later : List Use} {u : Use} {key : String}
    (hu : u.command = .retrieve key) (ha : u.answer = .read (.error (.expired key)))
    (hlater : ∀ w ∈ later, ∀ data span, w.command ≠ .store key data span) (record : StoreEntry) :
    ¬ Live ttl (before ++ u :: later) key record := by
  induction later using List.reverseRecOn with
  | nil =>
    rw [Live, latest_concat]
    simp [Use.Keeps, Use.Ends, hu, ha]
  | append_singleton later w ih =>
    rw [← List.cons_append, ← List.append_assoc, Live, latest_concat]
    rintro (⟨span, hw, -⟩ | ⟨-, hlive⟩)
    · exact hlater w (by simp) _ _ hw
    · exact ih (fun w hw => hlater w (by simp [hw])) hlive

/-! ## Calls on one key -/

/-- A call on a key reads nothing of the store but the entry of the key and the default span. -/
theorem execute_congr {s t : DataStore} (hs : s.ttl = t.ttl) {key : String}
    (hentry : s.entries.get? key = t.entries.get? key) {now : Instant} {command : Command}
    (hkey : command.key? = some key) :
    (s.execute now command).1 = (t.execute now command).1 ∧
      (s.execute now command).2.entries.get? key = (t.execute now command).2.entries.get? key := by
  cases command with
  | store k data span => simp [execute, store, effectiveTtl, hs, hentry]
  | retrieve k =>
    obtain rfl : k = key := Option.some.inj hkey
    cases ht : t.entries.get? k with
    | none => simp [execute, retrieve, hentry, ht]
    | some entry =>
      by_cases hexpired : entry.expiresAt ≤ now <;>
        simp [execute, retrieve, hentry, ht, hexpired]
  | delete k =>
    obtain rfl : k = key := Option.some.inj hkey
    simp [execute, delete, Dict.contains, hentry]
  | size => cases hkey

/-- A call on something else leaves the entry of a key. -/
theorem get?_execute_of_ne (s : DataStore) {key : String} {now : Instant} {command : Command}
    (hkey : command.key? ≠ some key) :
    (s.execute now command).2.entries.get? key = s.entries.get? key := by
  cases command with
  | store k data span =>
    have hk : key ≠ k := fun h => hkey (by rw [h]; rfl)
    simp [execute, store, hk]
  | retrieve k =>
    have hk : key ≠ k := fun h => hkey (by rw [h]; rfl)
    exact s.get?_retrieve_of_ne now hk
  | delete k =>
    have hk : key ≠ k := fun h => hkey (by rw [h]; rfl)
    simp [execute, get?_delete, hk]
  | size => rfl

/-- The call is one on the key. -/
def Call.isOn (key : String) (c : Call) : Bool := c.command.key? == some key

/-- The entry of a key is what the calls on it alone would have left. -/
theorem get?_after_filter (calls : List Call) (key : String) :
    (after ttl (calls.filter (Call.isOn key))).entries.get? key =
      (after ttl calls).entries.get? key := by
  induction calls using List.reverseRecOn with
  | nil => rfl
  | append_singleton calls c ih =>
    rw [List.filter_append, after_concat]
    by_cases hc : c.isOn key
    · have hkey : c.command.key? = some key := by simpa [Call.isOn] using hc
      rw [List.filter_cons_of_pos hc, List.filter_nil, after_concat]
      exact (execute_congr (by simp) ih hkey).2
    · have hkey : c.command.key? ≠ some key := by simpa [Call.isOn] using hc
      rw [List.filter_cons_of_neg hc, List.filter_nil, List.append_nil,
        get?_execute_of_ne _ hkey, ih]

/-- The calls on a key are answered as they would be alone. -/
theorem filter_transcript (calls : List Call) (key : String) :
    (transcript ttl calls).filter (fun u => u.isOn key) =
      transcript ttl (calls.filter (Call.isOn key)) := by
  induction calls using List.reverseRecOn with
  | nil => rfl
  | append_singleton calls c ih =>
    rw [transcript_concat, List.filter_append, List.filter_append, ih]
    by_cases hc : c.isOn key
    · have hkey : c.command.key? = some key := by simpa [Call.isOn] using hc
      have hsame : ((after ttl (calls.filter (Call.isOn key))).execute c.now c.command).1 =
          ((after ttl calls).execute c.now c.command).1 :=
        (execute_congr (by simp) (get?_after_filter calls key) hkey).1
      have huse (a : Answer) : [(⟨c, a⟩ : Use)].filter (fun u => u.isOn key) = [⟨c, a⟩] :=
        List.filter_cons_of_pos hc
      rw [huse, List.filter_cons_of_pos hc, List.filter_nil, transcript_concat, hsame]
    · have huse (a : Answer) : [(⟨c, a⟩ : Use)].filter (fun u => u.isOn key) = [] :=
        List.filter_cons_of_neg hc
      rw [huse, List.filter_cons_of_neg hc, List.filter_nil, List.append_nil, List.append_nil]

/-- **The data store follows its history.** After any calls on a new store, at whatever instants:

* the next call is answered from the live records, of which every key has at most one, and from the
  clock;
* once a reading has said that the record of a key has expired, readings say that there is none,
  until another value is kept under the key;
* the calls on one key have been answered as they would have been without all others;
* a value is kept until an instant that fits the clock, unless the clock is near its end. -/
theorem answers_of_transcript (ttl : Duration) (calls : List Call) (now : Instant)
    (command : Command) :
    Answers ttl (Live ttl (transcript ttl calls)) now command
        ((after ttl calls).execute now command).1 ∧
      (∀ key first second, Live ttl (transcript ttl calls) key first →
        Live ttl (transcript ttl calls) key second → first = second) ∧
      (∀ key before u later, transcript ttl calls = before ++ u :: later →
        u.command = .retrieve key → u.answer = .read (.error (.expired key)) →
        (∀ w ∈ later, ∀ data span, w.command ≠ .store key data span) →
        ((after ttl calls).execute now (.retrieve key)).1 = .read (.error (.notFound key))) ∧
      (∀ key, (transcript ttl calls).filter (fun u => u.isOn key) =
        transcript ttl (calls.filter (Call.isOn key))) ∧
      (Fits (now.after Instant.farFuture) → ∀ span, Fits (expiry ttl span now)) := by
  have hlive : (fun key record => (after ttl calls).entries.get? key = some record) =
      Live ttl (transcript ttl calls) :=
    funext₂ fun key record => propext (get?_after calls key record)
  have hanswer (command : Command) : Answers ttl (Live ttl (transcript ttl calls)) now command
      ((after ttl calls).execute now command).1 := by
    rw [← hlive]
    exact answers_execute (ttl_after calls) now command
  refine ⟨hanswer command, fun key first second h h' => ?_, fun key before u later h hu ha hno => ?_,
    filter_transcript calls, fun h span => fits_expiry h span⟩
  · have hfirst := (get?_after calls key first).2 h
    have hsecond := (get?_after calls key second).2 h'
    exact Option.some.inj (hfirst.symm.trans hsecond)
  · have hnone : ∀ record, ¬ Live ttl (before ++ u :: later) key record :=
      not_live_of_expired hu ha hno
    rw [← h] at hnone
    rcases hanswer (.retrieve key) with ⟨record, hr, -⟩ | ⟨record, hr, -⟩ | ⟨-, heq⟩
    · exact absurd hr (hnone record)
    · exact absurd hr (hnone record)
    · exact heq

/-- At the instant until which it is kept, a value can no longer be read. -/
example :
    (transcript (.ofSeconds 60) [⟨⟨0⟩, .store "k" (.string "v") (.ofSeconds 10)⟩,
      ⟨⟨9999999999⟩, .retrieve "k"⟩, ⟨⟨10000000000⟩, .retrieve "k"⟩,
      ⟨⟨10000000001⟩, .retrieve "k"⟩]).map Use.answer =
      [.stored ⟨10000000000⟩, .read (.ok (.string "v")), .read (.error (.expired "k")),
        .read (.error (.notFound "k"))] := by
  cbv

end DataStore

end FlowEngine
