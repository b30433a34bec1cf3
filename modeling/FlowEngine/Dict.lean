/-!
# Dictionaries

Finite maps from texts. Entries stand in increasing order of their keys, which are compared by code
point, so two dictionaries with the same entries are equal and listing one is deterministic.

## Main definitions

* `Entries.put`, `Entries.find?`, `Entries.drop`: the operations on sorted lists of entries.
* `Entries.Sorted`: keys increase strictly.
* `Dict`: a sorted list of entries.
* `Dict.get?`, `Dict.insert`, `Dict.erase`, `Dict.extend`, `Dict.ofList`: its operations.

## Main results

* `Dict.get?_insert`, `Dict.get?_erase`, `Dict.get?_extend`: reading after writing.
* `Dict.ext_get?`: a dictionary is determined by what reading it gives.
* `Dict.ofList_of_perm`: the order in which entries are listed does not matter.
* `Dict.mem_entries_iff`, `Dict.mem_keys_iff`, `Dict.nodup_keys`: listing and reading agree.
-/

namespace FlowEngine

/-- Keys with their values. -/
abbrev Entries (α : Type) := List (String × α)

namespace Entries

variable {α β : Type}

/-- Keys increase strictly. -/
def Sorted (es : Entries α) : Prop := es.Pairwise fun a b => a.1 < b.1

/-- The value of the first entry with this key. -/
def find? (es : Entries α) (key : String) : Option α := es.lookup key

@[simp] theorem find?_nil (key : String) : find? ([] : Entries α) key = none := rfl

theorem find?_cons (k : String) (v : α) (es : Entries α) (key : String) :
    find? ((k, v) :: es) key = if key = k then some v else find? es key := by
  by_cases h : key = k
  · simp [find?, h]
  · simp [find?, List.lookup_cons, h, beq_eq_false_iff_ne.2 h]

/-- Writes a value under a key, at its place in the order and over any value it had. -/
def put (key : String) (value : α) : Entries α → Entries α
  | [] => [(key, value)]
  | (k, v) :: es =>
    if key < k then (key, value) :: (k, v) :: es
    else if key = k then (key, value) :: es
    else (k, v) :: put key value es

/-- Removes the entries of a key. -/
def drop (key : String) (es : Entries α) : Entries α := es.filter fun e => e.1 ≠ key

/-- Sorts entries by key. Of several entries with one key the last one stays. -/
def normalize (es : Entries α) : Entries α := es.foldl (fun acc e => put e.1 e.2 acc) []

theorem lt_of_not_lt_of_ne {a b : String} (h : ¬ a < b) (h' : a ≠ b) : b < a := by
  apply Classical.byContradiction
  intro h2
  exact h' (String.le_antisymm (String.not_lt.1 h2) (String.not_lt.1 h))

theorem mem_put {key : String} {value : α} {es : Entries α} {e : String × α}
    (h : e ∈ put key value es) : e = (key, value) ∨ e ∈ es := by
  induction es with
  | nil => simpa [put] using h
  | cons e' es ih =>
    obtain ⟨k, v⟩ := e'
    simp only [put] at h
    split at h
    · simpa using h
    · split at h
      · rcases List.mem_cons.1 h with h | h
        · exact .inl h
        · exact .inr (List.mem_cons_of_mem _ h)
      · rcases List.mem_cons.1 h with h | h
        · exact .inr (h ▸ List.mem_cons_self)
        · exact (ih h).imp_right (List.mem_cons_of_mem _)

theorem Sorted.put {es : Entries α} (h : Sorted es) (key : String) (value : α) :
    Sorted (put key value es) := by
  induction es with
  | nil => simp [Entries.put, Sorted]
  | cons e es ih =>
    obtain ⟨k, v⟩ := e
    obtain ⟨hk, hes⟩ := List.pairwise_cons.1 h
    simp only [Entries.put]
    split
    · rename_i hlt
      refine List.pairwise_cons.2 ⟨fun e he => ?_, h⟩
      rcases List.mem_cons.1 he with rfl | he
      · exact hlt
      · exact String.lt_trans hlt (hk e he)
    · rename_i hlt
      split
      · rename_i heq
        exact List.pairwise_cons.2 ⟨fun e he => heq ▸ hk e he, hes⟩
      · rename_i hne
        refine List.pairwise_cons.2 ⟨fun e he => ?_, ih hes⟩
        rcases mem_put he with rfl | he
        · exact lt_of_not_lt_of_ne hlt hne
        · exact hk e he

theorem Sorted.drop {es : Entries α} (h : Sorted es) (key : String) : Sorted (drop key es) :=
  List.Pairwise.filter _ h

theorem sorted_normalize (es : Entries α) : Sorted (normalize es) := by
  suffices ∀ acc : Entries α, Sorted acc →
      Sorted (es.foldl (fun acc e => Entries.put e.1 e.2 acc) acc) from this [] List.Pairwise.nil
  intro acc h
  induction es generalizing acc with
  | nil => exact h
  | cons e es ih => exact ih _ (h.put e.1 e.2)

theorem mem_of_mem_normalize {es : Entries α} {e : String × α} (h : e ∈ normalize es) : e ∈ es := by
  suffices ∀ acc : Entries α, e ∈ es.foldl (fun acc e => Entries.put e.1 e.2 acc) acc → e ∈ acc ∨ e ∈ es from
    (this [] h).resolve_left List.not_mem_nil
  clear h
  intro acc h
  induction es generalizing acc with
  | nil => exact .inl h
  | cons e' es ih =>
    rcases ih _ h with hacc | hes
    · rcases mem_put hacc with heq | hacc
      · exact .inr (heq ▸ List.mem_cons_self)
      · exact .inl hacc
    · exact .inr (List.mem_cons_of_mem _ hes)

theorem mem_put_self (key : String) (value : α) (es : Entries α) : (key, value) ∈ put key value es := by
  induction es with
  | nil => exact List.mem_cons_self
  | cons e es ih =>
    obtain ⟨k, v⟩ := e
    simp only [put]
    split
    · exact List.mem_cons_self
    · split
      · exact List.mem_cons_self
      · exact List.mem_cons_of_mem _ ih

theorem mem_put_of_ne {key : String} {value : α} {es : Entries α} {e : String × α} (he : e ∈ es)
    (hne : e.1 ≠ key) : e ∈ put key value es := by
  induction es with
  | nil => cases he
  | cons e' es ih =>
    obtain ⟨k, v⟩ := e'
    simp only [put]
    split
    · exact List.mem_cons_of_mem _ he
    · rcases List.mem_cons.1 he with rfl | he
      · rw [if_neg fun h => hne h.symm]
        exact List.mem_cons_self
      · split
        · exact List.mem_cons_of_mem _ he
        · exact List.mem_cons_of_mem _ (ih he)

/-- No entry is lost if keys are different. -/
theorem mem_normalize_of_nodup {es : Entries α} (h : (es.map Prod.fst).Nodup) {e : String × α}
    (he : e ∈ es) : e ∈ normalize es := by
  suffices ∀ acc : Entries α, e ∈ es ∨ e ∈ acc ∧ e.1 ∉ es.map Prod.fst →
      e ∈ es.foldl (fun acc e => Entries.put e.1 e.2 acc) acc from this [] (.inl he)
  clear he
  intro acc he
  induction es generalizing acc with
  | nil => exact he.elim (fun h => nomatch h) And.left
  | cons e' es ih =>
    obtain ⟨hnew, hes⟩ := List.nodup_cons.1 h
    refine ih hes _ ?_
    rcases he with he | ⟨hacc, hkey⟩
    · rcases List.mem_cons.1 he with rfl | he
      · exact .inr ⟨mem_put_self .., hnew⟩
      · exact .inl he
    · rw [List.map_cons, List.mem_cons, not_or] at hkey
      exact .inr ⟨mem_put_of_ne hacc hkey.1, hkey.2⟩

/-- Whether entries are sorted depends on their keys only. -/
theorem Sorted.of_keys {es : Entries α} {fs : Entries β} (h : Sorted es)
    (hkeys : fs.map Prod.fst = es.map Prod.fst) : Sorted fs := by
  have hes : (es.map Prod.fst).Pairwise (· < ·) := List.pairwise_map.2 h
  exact List.pairwise_map.1 (hkeys ▸ hes)

theorem Sorted.map_values {es : Entries α} (h : Sorted es) (f : α → β) :
    Sorted (es.map fun e => (e.1, f e.2)) := by
  refine h.of_keys ?_
  rw [List.map_map]
  rfl

theorem find?_put (key : String) (value : α) (es : Entries α) (k : String) :
    find? (put key value es) k = if k = key then some value else find? es k := by
  induction es with
  | nil => simp [put, find?_cons]
  | cons e es ih =>
    obtain ⟨k', v⟩ := e
    simp only [put]
    split
    · rw [find?_cons]
    · split
      · rename_i heq
        subst heq
        simp only [find?_cons]
        split <;> rfl
      · rename_i hne
        simp only [find?_cons, ih]
        split
        · rename_i h
          subst h
          rw [if_neg (fun h => hne h.symm)]
        · rfl

theorem find?_drop (key : String) (es : Entries α) (k : String) :
    find? (drop key es) k = if k = key then none else find? es k := by
  induction es with
  | nil => simp [drop]
  | cons e es ih =>
    obtain ⟨k', v⟩ := e
    by_cases h : k' = key
    · subst h
      simp only [drop, ne_eq, not_true_eq_false, decide_false, Bool.false_eq_true,
        not_false_eq_true, List.filter_cons_of_neg] at ih ⊢
      rw [ih, find?_cons]
      split <;> rfl
    · simp only [drop, ne_eq, h, not_false_eq_true, decide_true, List.filter_cons_of_pos,
        find?_cons] at ih ⊢
      rw [ih]
      split
      · rename_i hk
        subst hk
        rw [if_neg h]
      · rfl

theorem find?_eq_none_of_lt {key : String} {es : Entries α} (h : ∀ e ∈ es, key < e.1) :
    find? es key = none := by
  induction es with
  | nil => rfl
  | cons e es ih =>
    obtain ⟨k, v⟩ := e
    rw [find?_cons, if_neg, ih fun e he => h e (List.mem_cons_of_mem _ he)]
    intro heq
    exact String.lt_irrefl k (heq ▸ h (k, v) List.mem_cons_self)

/-- Reading sorted entries finds each of them. -/
theorem Sorted.mem_iff {es : Entries α} (h : Sorted es) {key : String} {value : α} :
    (key, value) ∈ es ↔ find? es key = some value := by
  induction es with
  | nil => simp
  | cons e es ih =>
    obtain ⟨k, v⟩ := e
    obtain ⟨hk, hes⟩ := List.pairwise_cons.1 h
    rw [List.mem_cons, ih hes, find?_cons]
    by_cases heq : key = k
    · subst heq
      rw [find?_eq_none_of_lt hk]
      simp [eq_comm]
    · simp [heq]

/-- Sorted entries are determined by what reading them gives. -/
theorem Sorted.ext {es fs : Entries α} (he : Sorted es) (hf : Sorted fs)
    (h : ∀ k, find? es k = find? fs k) : es = fs := by
  induction es generalizing fs with
  | nil =>
    cases fs with
    | nil => rfl
    | cons f fs =>
      obtain ⟨l, w⟩ := f
      simpa [find?_cons] using h l
  | cons e es ih =>
    obtain ⟨k, v⟩ := e
    obtain ⟨hk, hes⟩ := List.pairwise_cons.1 he
    cases fs with
    | nil => simpa [find?_cons] using h k
    | cons f fs =>
      obtain ⟨l, w⟩ := f
      obtain ⟨hl, hfs⟩ := List.pairwise_cons.1 hf
      have key : k = l := by
        apply Classical.byContradiction
        intro hne
        by_cases hlt : k < l
        · have hkl := h k
          rw [find?_cons, find?_cons, if_pos rfl, if_neg hne,
            find?_eq_none_of_lt fun e hm => String.lt_trans hlt (hl e hm)] at hkl
          contradiction
        · have hlk := h l
          have hlt' := lt_of_not_lt_of_ne hlt hne
          rw [find?_cons, find?_cons, if_pos rfl, if_neg (fun h => hne h.symm),
            find?_eq_none_of_lt fun e hm => String.lt_trans hlt' (hk e hm)] at hlk
          contradiction
      subst key
      have hv : v = w := by simpa [find?_cons] using h k
      subst hv
      refine congrArg _ (ih hes hfs fun x => ?_)
      by_cases hx : x = k
      · subst hx
        rw [find?_eq_none_of_lt hk, find?_eq_none_of_lt hl]
      · simpa [find?_cons, hx] using h x

/-- Writing sorted entries over others. -/
theorem find?_foldl_put {es : Entries α} (h : Sorted es) (acc : Entries α) (k : String) :
    find? (es.foldl (fun acc e => put e.1 e.2 acc) acc) k = (find? es k).or (find? acc k) := by
  induction es generalizing acc with
  | nil => rfl
  | cons e es ih =>
    obtain ⟨key, value⟩ := e
    obtain ⟨hkey, hes⟩ := List.pairwise_cons.1 h
    rw [List.foldl_cons, ih hes, find?_put, find?_cons]
    by_cases hk : k = key
    · rw [if_pos hk, if_pos hk, hk, find?_eq_none_of_lt hkey]
      rfl
    · rw [if_neg hk, if_neg hk]

/-- Sorted entries stay as they are. -/
theorem Sorted.normalize_eq {es : Entries α} (h : Sorted es) : normalize es = es :=
  (sorted_normalize es).ext h fun k => by rw [normalize, find?_foldl_put h, find?_nil, Option.or_none]

end Entries

/-- A finite map from texts, with its entries in increasing order of the keys. -/
structure Dict (α : Type) where
  entries : Entries α
  sorted : entries.Sorted

namespace Dict

variable {α β : Type}

/-- The dictionary without entries. -/
def empty : Dict α := ⟨[], List.Pairwise.nil⟩

instance : Inhabited (Dict α) := ⟨empty⟩

instance : EmptyCollection (Dict α) := ⟨empty⟩

instance [DecidableEq α] : DecidableEq (Dict α) := fun a b =>
  if h : a.entries = b.entries then
    isTrue (by cases a; cases b; simpa using h)
  else isFalse fun heq => h (heq ▸ rfl)

instance [BEq α] : BEq (Dict α) := ⟨fun a b => a.entries == b.entries⟩

/-- The value under a key. -/
def get? (d : Dict α) (key : String) : Option α := d.entries.find? key

/-- Writes a value under a key, over any value it had. -/
def insert (d : Dict α) (key : String) (value : α) : Dict α :=
  ⟨d.entries.put key value, d.sorted.put key value⟩

/-- Removes a key. -/
def erase (d : Dict α) (key : String) : Dict α := ⟨d.entries.drop key, d.sorted.drop key⟩

/-- Whether a key has a value. -/
def contains (d : Dict α) (key : String) : Bool := (d.get? key).isSome

/-- The number of keys. -/
def size (d : Dict α) : Nat := d.entries.length

/-- The keys in increasing order. -/
def keys (d : Dict α) : List String := d.entries.map (·.1)

/-- A dictionary from entries in any order. Of several entries with one key the last one stays. -/
def ofList (es : Entries α) : Dict α := ⟨es.normalize, Entries.sorted_normalize es⟩

/-- Writes all entries of `other`, over the values that `d` has under the same keys. -/
def extend (d other : Dict α) : Dict α := other.entries.foldl (fun d e => d.insert e.1 e.2) d

/-- Applies a function to every value. -/
def map (f : α → β) (d : Dict α) : Dict β :=
  ⟨d.entries.map fun e => (e.1, f e.2), by
    unfold Entries.Sorted
    exact List.pairwise_map.2 d.sorted⟩

@[simp] theorem get?_empty (key : String) : (∅ : Dict α).get? key = none := rfl

@[simp] theorem get?_insert (d : Dict α) (key : String) (value : α) (k : String) :
    (d.insert key value).get? k = if k = key then some value else d.get? k :=
  Entries.find?_put key value d.entries k

@[simp] theorem get?_erase (d : Dict α) (key k : String) :
    (d.erase key).get? k = if k = key then none else d.get? k :=
  Entries.find?_drop key d.entries k

theorem get?_insert_self (d : Dict α) (key : String) (value : α) :
    (d.insert key value).get? key = some value := by simp

theorem entries_extend (d other : Dict α) :
    (d.extend other).entries = other.entries.foldl (fun acc e => Entries.put e.1 e.2 acc) d.entries := by
  rw [extend]
  induction other.entries generalizing d with
  | nil => rfl
  | cons e es ih => exact ih (d.insert e.1 e.2)

theorem get?_extend (d other : Dict α) (k : String) :
    (d.extend other).get? k = (other.get? k).or (d.get? k) := by
  rw [get?, entries_extend]
  exact Entries.find?_foldl_put other.sorted d.entries k

@[simp] theorem ofList_entries (d : Dict α) : ofList d.entries = d := by
  cases d with
  | mk es h =>
    have heq := Entries.Sorted.normalize_eq h
    simp only [ofList, heq]

theorem ext_get? {d e : Dict α} (h : ∀ k, d.get? k = e.get? k) : d = e := by
  cases d with
  | mk ds hd =>
    cases e with
    | mk es he =>
      have : ds = es := hd.ext he h
      subst this
      rfl

theorem mem_entries_iff (d : Dict α) {key : String} {value : α} :
    (key, value) ∈ d.entries ↔ d.get? key = some value :=
  d.sorted.mem_iff

/-- The keys are those that have a value. -/
theorem mem_keys_iff (d : Dict α) {key : String} :
    key ∈ d.keys ↔ ∃ value, d.get? key = some value := by
  simp [keys, ← mem_entries_iff]

/-- No key is listed twice. -/
theorem nodup_keys (d : Dict α) : d.keys.Nodup := by
  refine List.pairwise_map.2 (List.Pairwise.imp ?_ d.sorted)
  intro a b hlt heq
  rw [heq] at hlt
  exact String.lt_irrefl b.1 hlt

/-- The order in which entries are listed does not matter, if no key is listed twice. -/
theorem ofList_of_perm {es : Entries α} {d : Dict α} (h : es.Perm d.entries) : ofList es = d := by
  have hkeys : (es.map Prod.fst).Nodup := (h.map Prod.fst).nodup_iff.mpr d.nodup_keys
  refine ext_get? fun k => Option.ext fun v => ?_
  rw [← mem_entries_iff, ← mem_entries_iff, ← h.mem_iff]
  exact ⟨Entries.mem_of_mem_normalize, Entries.mem_normalize_of_nodup hkeys⟩

theorem extend_self (d : Dict α) : d.extend d = d :=
  ext_get? fun k => by rw [get?_extend, Option.or_self]

end Dict

end FlowEngine
