import FlowEngine.Envelope

/-!
# Groups of envelopes

Envelopes that wait for others to be merged with. A group belongs to one node within one run of one
workflow, and exists only while it holds something.

## Main definitions

* `GroupKey`: what a group belongs to.
* `Groups`: the open groups.
* `Groups.items`, `Groups.add`, `Groups.close`: reading, growing and removing a group.
* `Groups.Proper`: what holds of all groups that were ever stored.

## Main results

* `Groups.items_add`, `Groups.items_close`: reading after writing.
* `Groups.Proper.mem_map_fst_iff`: the groups that are stored are those that hold something.
-/

namespace FlowEngine

/-- What a group belongs to. -/
structure GroupKey where
  agentId : String
  runId : String
  nodeId : String
  deriving DecidableEq

/-- The open groups, each with its envelopes in order of arrival. -/
structure Groups where
  entries : List (GroupKey × List (Envelope Value)) := []

namespace Groups

instance : Inhabited Groups := ⟨{}⟩

/-- The envelopes of a group; none if it is not open. -/
def items (g : Groups) (key : GroupKey) : List (Envelope Value) := (g.entries.lookup key).getD []

/-- Removes a group. -/
def close (g : Groups) (key : GroupKey) : Groups := ⟨g.entries.filter fun e => e.1 ≠ key⟩

/-- Puts an envelope at the end of a group, and opens the group if need be. -/
def add (g : Groups) (key : GroupKey) (e : Envelope Value) : Groups :=
  ⟨(key, g.items key ++ [e]) :: (g.close key).entries⟩

/-- The number of open groups. -/
def count (g : Groups) : Nat := g.entries.length

theorem lookup_filter_ne (es : List (GroupKey × List (Envelope Value))) (key k : GroupKey) :
    (es.filter fun e => e.1 ≠ key).lookup k = if k = key then none else es.lookup k := by
  induction es with
  | nil => simp
  | cons e es ih =>
    obtain ⟨k', v⟩ := e
    by_cases h : k' = key
    · subst h
      rw [List.filter_cons_of_neg (by simp), ih]
      by_cases hk : k = k'
      · simp [hk]
      · simp [hk, List.lookup_cons, beq_eq_false_iff_ne.2 hk]
    · rw [List.filter_cons_of_pos (by simp [h])]
      by_cases hk : k = k'
      · subst hk
        simp [h]
      · simp only [List.lookup_cons, beq_eq_false_iff_ne.2 hk]
        exact ih

@[simp] theorem items_close (g : Groups) (key k : GroupKey) :
    (g.close key).items k = if k = key then [] else g.items k := by
  simp only [items, close, lookup_filter_ne]
  split <;> rfl

@[simp] theorem items_add (g : Groups) (key : GroupKey) (e : Envelope Value) (k : GroupKey) :
    (g.add key e).items k = if k = key then g.items key ++ [e] else g.items k := by
  by_cases h : k = key
  · simp [add, items, h]
  · have hc := items_close g key k
    simp only [items] at hc
    simp [add, items, List.lookup_cons, beq_eq_false_iff_ne.2 h, h, hc]

/-! ### Which groups are open -/

/-- No group is stored twice, and none is stored empty. -/
structure Proper (g : Groups) : Prop where
  distinct : (g.entries.map Prod.fst).Nodup
  nonempty : ∀ x ∈ g.entries, x.2 ≠ []

theorem proper_empty : Proper {} := ⟨List.nodup_nil, fun _ h => nomatch h⟩

theorem Proper.close {g : Groups} (h : g.Proper) (key : GroupKey) : (g.close key).Proper where
  distinct := h.distinct.sublist (List.filter_sublist.map _)
  nonempty x hx := h.nonempty x (List.mem_filter.mp hx).1

theorem Proper.add {g : Groups} (h : g.Proper) (key : GroupKey) (e : Envelope Value) :
    (g.add key e).Proper where
  distinct := by
    refine List.nodup_cons.mpr ⟨fun hmem => ?_, (h.close key).distinct⟩
    obtain ⟨x, hx, hkey⟩ := List.mem_map.mp hmem
    simpa [hkey] using (List.mem_filter.mp hx).2
  nonempty x hx := by
    rcases List.mem_cons.mp hx with rfl | hx
    · simp
    · exact (h.close key).nonempty x hx

/-- A group is stored exactly while it holds something. -/
theorem Proper.mem_map_fst_iff {g : Groups} (h : g.Proper) (key : GroupKey) :
    key ∈ g.entries.map Prod.fst ↔ g.items key ≠ [] := by
  cases hl : g.entries.lookup key with
  | none =>
    have habsent : key ∉ g.entries.map Prod.fst := by
      intro hmem
      obtain ⟨x, hx, rfl⟩ := List.mem_map.mp hmem
      simpa using List.lookup_eq_none_iff.mp hl x hx
    exact iff_of_false habsent (by simp [items, hl])
  | some es =>
    obtain ⟨before, after, hentries, -⟩ := List.lookup_eq_some_iff.mp hl
    have hmem : (key, es) ∈ g.entries := by simp [hentries]
    exact iff_of_true (List.mem_map_of_mem hmem) (by simpa [items, hl] using h.nonempty _ hmem)

end Groups

end FlowEngine
