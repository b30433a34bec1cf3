import FlowEngine.Platform.Error
import FlowEngine.Platform.Settings
import FlowEngine.Value.Basic

/-!
# The data store

Values that are kept for some time. Whether an entry has expired is found out when it is read, and
an expired entry is removed then; nothing else removes it in the background.

## Main definitions

* `DataStore`: the entries.
* `DataStore.store`, `retrieve`, `delete`: its operations at an instant.
-/

namespace FlowEngine

/-- A value with the instant from which on it can no longer be read. -/
structure StoreEntry where
  data : Value
  expiresAt : Instant

/-- Values by key. -/
structure DataStore where
  entries : Dict StoreEntry
  ttl : Duration

namespace DataStore

/-- An empty store. The given span is how long entries are kept unless they say otherwise; an empty
span stands for a day. -/
def new (ttl : Duration) : DataStore := ⟨{}, if ttl.isZero then defaultTtl else ttl⟩

/-- How long an entry is kept. -/
def effectiveTtl (s : DataStore) (ttl : Duration) : Duration := if ttl.isZero then s.ttl else ttl

/-- How long a value that is kept from an instant on can be read in effect: for the span that is
asked for or the default one, and for thirty years if the clock cannot hold the end of that. -/
def lifetime (s : DataStore) (now : Instant) (ttl : Duration) : Duration :=
  if now.nanos + (s.effectiveTtl ttl).nanos < Instant.horizonSeconds * 1000000000 then
    s.effectiveTtl ttl
  else Instant.farFuture

theorem lifetime_congr {s t : DataStore} (h : s.ttl = t.ttl) (now : Instant) (ttl : Duration) :
    s.lifetime now ttl = t.lifetime now ttl := by
  rw [lifetime, lifetime, effectiveTtl, effectiveTtl, h]

/-- Keeps a value under a key, for a span or, if that is empty, for the default span. -/
def store (s : DataStore) (now : Instant) (key : String) (data : Value) (ttl : Duration) :
    Instant × DataStore :=
  let expiresAt := now.deadline (s.effectiveTtl ttl)
  (expiresAt, { s with entries := s.entries.insert key ⟨data, expiresAt⟩ })

/-- The value under a key. An expired one is removed. -/
def retrieve (s : DataStore) (now : Instant) (key : String) :
    Except StoreError Value × DataStore :=
  match s.entries.get? key with
  | none => (.error (.notFound key), s)
  | some entry =>
    if entry.expiresAt ≤ now then
      (.error (.expired key), { s with entries := s.entries.erase key })
    else (.ok entry.data, s)

/-- Removes a key, and says whether it had a value. -/
def delete (s : DataStore) (key : String) : Bool × DataStore :=
  (s.entries.contains key, { s with entries := s.entries.erase key })

theorem fst_store (s : DataStore) (now : Instant) (key : String) (data : Value) (ttl : Duration) :
    (s.store now key data ttl).1 = now.after (s.lifetime now ttl) := by
  unfold store Instant.deadline lifetime
  split <;> rfl

theorem get?_store (s : DataStore) (now : Instant) (key : String) (data : Value) (ttl : Duration)
    (k : String) : (s.store now key data ttl).2.entries.get? k =
      if k = key then some ⟨data, now.after (s.lifetime now ttl)⟩ else s.entries.get? k := by
  rw [← s.fst_store now key data ttl]
  exact Dict.get?_insert s.entries key _ k

theorem get?_delete (s : DataStore) (key k : String) :
    (s.delete key).2.entries.get? k = if k = key then none else s.entries.get? k :=
  Dict.get?_erase s.entries key k

/-- Reading changes nothing but an expired entry under its own key. -/
theorem get?_retrieve_of_ne (s : DataStore) (now : Instant) {key k : String} (h : k ≠ key) :
    (s.retrieve now key).2.entries.get? k = s.entries.get? k := by
  unfold retrieve
  split
  · rfl
  · split
    · simp [h]
    · rfl

theorem retrieve_of_live {s : DataStore} {now : Instant} {key : String} {entry : StoreEntry}
    (h : s.entries.get? key = some entry) (hn : now < entry.expiresAt) :
    s.retrieve now key = (.ok entry.data, s) := by
  have : ¬ entry.expiresAt ≤ now := Instant.not_le.mpr hn
  simp [retrieve, h, this]

@[simp] theorem ttl_store (s : DataStore) (now : Instant) (key : String) (data : Value)
    (ttl : Duration) : (s.store now key data ttl).2.ttl = s.ttl := rfl

@[simp] theorem ttl_retrieve (s : DataStore) (now : Instant) (key : String) :
    (s.retrieve now key).2.ttl = s.ttl := by
  unfold retrieve
  split
  · rfl
  · split <;> rfl

/-- The number of entries, including expired ones that have not been read since. -/
def size (s : DataStore) : Nat := s.entries.size

end DataStore

end FlowEngine
