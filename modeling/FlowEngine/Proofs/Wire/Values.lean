import FlowEngine.Proofs.Wire.Faithful
import FlowEngine.Value.Tagged

/-!
# Tagged values are read back

A tagged value is an object with a kind and a content, so each level of a value takes two levels of
JSON: one for the object, and one for the items or members of its content. Kind and content have their
places, and the members of an object come in any order. The reader of a value of the next level is what the reader of a content is given, and induction over the value goes through the
budgets two by two. What cannot be read back is a number without JSON form at any depth, and a tree
that is too deep.

## Main definitions

* `Value.numbers`: all numbers inside a value.

## Main results

* `Codec.faithful_value`: tagged values are read back.
-/

namespace FlowEngine

open Json

namespace Value

/-! ## Numbers inside -/

mutual

/-- The numbers inside a value, in order. -/
def numbers : Value → List Float
  | .null | .bool _ | .string _ | .bytes _ => []
  | .number x => [x]
  | .array items => numbersOfItems items
  | .object members => numbersOfMembers members

/-- The numbers inside items. -/
def numbersOfItems : List Value → List Float
  | [] => []
  | item :: items => numbers item ++ numbersOfItems items

/-- The numbers inside the values of members. -/
def numbersOfMembers : List (String × Value) → List Float
  | [] => []
  | (_, value) :: members => numbers value ++ numbersOfMembers members

end

theorem numbersOfItems_eq_flatMap (items : List Value) : numbersOfItems items = items.flatMap numbers := by
  induction items with
  | nil => rfl
  | cons item items ih => rw [numbersOfItems, ih, List.flatMap_cons]

theorem numbersOfMembers_eq_flatMap (members : List (String × Value)) :
    numbersOfMembers members = members.flatMap fun m => numbers m.2 := by
  induction members with
  | nil => rfl
  | cons m members ih =>
    obtain ⟨key, value⟩ := m
    rw [numbersOfMembers, ih, List.flatMap_cons]

theorem forall_mem_numbers_array {items : List Value} {p : Float → Prop} :
    (∀ x ∈ (array items).numbers, p x) ↔ ∀ v ∈ items, ∀ x ∈ v.numbers, p x := by
  rw [numbers, numbersOfItems_eq_flatMap, List.forall_mem_flatMap]

theorem forall_mem_numbers_object {members : List (String × Value)} {p : Float → Prop} :
    (∀ x ∈ (object members).numbers, p x) ↔ ∀ m ∈ members, ∀ x ∈ m.2.numbers, p x := by
  rw [numbers, numbersOfMembers_eq_flatMap, List.forall_mem_flatMap]

theorem canonicalItems_iff {items : List Value} : CanonicalItems items ↔ ∀ v ∈ items, v.Canonical := by
  induction items with
  | nil => simp [CanonicalItems]
  | cons item items ih => rw [CanonicalItems, ih, List.forall_mem_cons]

theorem canonicalMembers_iff {members : List (String × Value)} :
    CanonicalMembers members ↔ ∀ m ∈ members, m.2.Canonical := by
  induction members with
  | nil => simp [CanonicalMembers]
  | cons m members ih =>
    obtain ⟨key, value⟩ := m
    rw [CanonicalMembers, ih, List.forall_mem_cons]

/-! ## The object of kind and content -/

theorem depth_tagged (k : Kind) (content : Json) : (tagged k content).depth = content.depth + 1 := by
  simp [tagged, Json.depth, depthMembers]

section Parts

variable (layout : Layout) (level : Nat)

/-- Another member of a tagged value is found. -/
theorem nextPart_lead (fuel : Nat) (first : Bool) {key : String} (hkey : relevant key) (s : Glyphs) :
    nextPart (fuel + 1) first (lead layout level first (some '"' :: writtenText key s)) =
      .ok (some key, s) := by
  rw [nextPart, nextKey_lead]
  change (readString (writtenText key s) >>= _) = _
  rw [readString_writtenText]
  change (if relevant key then _ else _) = _
  rw [if_pos hkey]
  rfl

/-- The end of a tagged value is found. -/
theorem nextPart_of_skipBlanks (fuel : Nat) (first : Bool) {s rest : Glyphs}
    (h : skipBlanks s = some '\x7d' :: rest) :
    nextPart (fuel + 1) first s = .ok (none, some '\x7d' :: rest) := by
  rw [nextPart, nextKey_of_skipBlanks h]
  rfl

theorem readChoice_kind (budget : Nat) (k : Kind) {s rest : Glyphs} (hrest : Ended rest)
    (hs : skipBlanks s = written layout level (.string k.name) rest) :
    Codec.readChoice kinds budget s = .ok (k, rest) := by
  have hkind : kinds.lookup k.name = some k := by
    cases k <;> rfl
  exact (Codec.faithful_choice hkind _ rfl budget layout level rest s hrest hs).ok
    ⟨trivial, Nat.zero_le budget⟩

end Parts

/-- An object of kind and content is read back if the content is. -/
theorem readsBack_tagged {budget : Nat} {nested : Option Reader} {k : Kind} {content : Json} {p : Prop}
    {v : Value} (h : ReadsBack (readContent nested k) content p v) :
    ReadsBack (readTaggedWith budget nested) (tagged k content) p v := by
  intro layout level rest s hrest hs
  let close := closing layout level false '\x7d' rest
  let value := layout.colon.map some ++ written layout (level + 1) content close
  let after := lead layout (level + 1) false (some '"' :: writtenText contentKey value)
  let kind := layout.colon.map some ++ written layout (level + 1) (.string k.name) after
  have hwritten : skipBlanks s =
      some '\x7b' :: lead layout (level + 1) true (some '"' :: writtenText kindKey kind) := by
    rw [hs, tagged, written_object]
    rfl
  have hclose : skipBlanks close = some '\x7d' :: rest := skipBlanks_closing layout level false rfl
  have hkind : Codec.readChoice kinds budget ((layout.colon.drop 1).map some ++
      written layout (level + 1) (.string k.name) after) = .ok (k, after) :=
    readChoice_kind layout (level + 1) budget k (ended_lead layout (level + 1) _)
      (skipBlanks_colon layout (level + 1) _)
  have hcontent := h layout (level + 1) close _ (ended_closing layout level false (by simp))
    (skipBlanks_colon layout (level + 1) content)
  have hend : expectEnd close = .ok (some '\x7d' :: rest) := by
    rw [expectEnd, nextPart_of_skipBlanks _ _ hclose]
    rfl
  have hparts : OkIff (readParts budget nested
      (lead layout (level + 1) true (some '"' :: writtenText kindKey kind))) p
        (v, some '\x7d' :: rest) := by
    rw [readParts, nextPart_lead layout (level + 1) _ true rfl]
    change OkIff (readColon kind >>= _) _ _
    rw [readColon_colon]
    change OkIff (Codec.readChoice kinds budget _ >>= _) _ _
    rw [hkind]
    change OkIff (nextPart (after.length + 1) false after >>= _) _ _
    rw [nextPart_lead layout (level + 1) _ false rfl]
    change OkIff (readColon value >>= _) _ _
    rw [readColon_colon]
    refine hcontent.bind_ok ?_
    change (expectEnd close >>= _) = _
    rw [hend]
    rfl
  rw [readTaggedWith, hwritten]
  exact hparts.bind_ok rfl

/-- Null is read back from the object of its kind. -/
theorem readsBack_null (budget : Nat) (nested : Option Reader) :
    ReadsBack (readTaggedWith budget nested) (toTagged .null) True .null := by
  intro layout level rest s hrest hs
  refine .of_ok ?_
  let close := closing layout level false '\x7d' rest
  let kind := layout.colon.map some ++ written layout (level + 1) (.string Kind.null.name) close
  have hwritten : skipBlanks s =
      some '\x7b' :: lead layout (level + 1) true (some '"' :: writtenText kindKey kind) := by
    rw [hs, toTagged, written_object]
    rfl
  have hkind : Codec.readChoice kinds budget ((layout.colon.drop 1).map some ++
      written layout (level + 1) (.string Kind.null.name) close) = .ok (.null, close) :=
    readChoice_kind layout (level + 1) budget .null
      (ended_closing layout level false (by simp)) (skipBlanks_colon layout (level + 1) _)
  have hparts : readParts budget nested
      (lead layout (level + 1) true (some '"' :: writtenText kindKey kind)) =
        .ok (.null, some '\x7d' :: rest) := by
    rw [readParts, nextPart_lead layout (level + 1) _ true rfl]
    change (readColon kind >>= _) = _
    rw [readColon_colon]
    change (Codec.readChoice kinds budget _ >>= _) = _
    rw [hkind]
    change (nextPart (close.length + 1) false close >>= _) = _
    rw [nextPart_of_skipBlanks _ _ (skipBlanks_closing layout level false rfl)]
    rfl
  rw [readTaggedWith, hwritten]
  change (readParts budget nested _ >>= _) = _
  rw [hparts]
  rfl

theorem readsBack_tooDeep (members : List (String × Json)) (v : Value) :
    ReadsBack readTaggedTooDeep (.object members) False v := by
  intro layout level rest s _ hs
  rw [written_object] at hs
  have hread : readTaggedTooDeep s = .error (.text .tooDeep) := by
    rw [readTaggedTooDeep, hs]
    rfl
  exact .of_error hread id

end Value

namespace Codec

open Value

/-! ## Values -/

theorem faithful_value_null : value.Faithful .null True := by
  have hdepth : (toTagged .null).depth = 1 := rfl
  rintro _ ⟨⟩ budget
  rcases budget with _ | _ | budget
  · exact (readsBack_tooDeep _ _).congr (by simp [hdepth])
  · exact (readsBack_null 0 none).congr (by simp [hdepth])
  · exact (readsBack_null (budget + 1) _).congr (by simp [hdepth])

/-- A value is read back if its content is: where no container may be entered, and where the values
inside are read with what is left of the budget. -/
theorem readsBack_of_content {v : Value} {k : Kind} {content : Json} {p : Prop}
    (hclosed : ReadsBack (readContent none k) content (p ∧ content.depth ≤ 0) v)
    (hopen : ∀ budget, ReadsBack (readContent (some (readTagged budget)) k) content
      (p ∧ content.depth ≤ budget + 1) v) (budget : Nat) :
    ReadsBack (readTagged budget) (tagged k content) (p ∧ (tagged k content).depth ≤ budget) v := by
  rw [depth_tagged]
  rcases budget with _ | _ | budget
  · exact (readsBack_tooDeep _ _).congr (iff_of_false id fun h => Nat.not_succ_le_zero _ h.2)
  · exact (readsBack_tagged hclosed).congr (and_congr_right fun _ => Nat.succ_le_succ_iff.symm)
  · exact (readsBack_tagged (hopen budget)).congr (and_congr_right fun _ => Nat.succ_le_succ_iff.symm)

/-- A value whose content is no container of values is read back if its content is. -/
theorem faithful_content {α : Type} {c : Codec α} {a : α} {f : α → Value} {k : Kind} {p : Prop}
    (htree : ∀ tree, Value.Writes (f a) tree → ∃ content, c.Writes a content ∧ tree = tagged k content)
    (hread : ∀ nested s, readContent nested k s =
      (c.read (if nested.isSome then 1 else 0) s).map fun x => (f x.1, x.2))
    (hdepth : ∀ content, c.Writes a content → content.depth ≤ 1) (h : c.Faithful a p) :
    value.Faithful (f a) p := by
  intro tree hwritten
  obtain ⟨content, hcontent, rfl⟩ := htree tree hwritten
  have hread (nested : Option Reader) : ReadsBack (readContent nested k) content
      (p ∧ content.depth ≤ if nested.isSome then 1 else 0) (f a) := by
    intro layout level rest s hrest hs
    rw [hread]
    exact (h content hcontent _ layout level rest s hrest hs).map fun x => (f x.1, x.2)
  refine readsBack_of_content (hread none) fun budget => (hread _).congr (and_congr_right fun _ => ?_)
  have hdepth := hdepth content hcontent
  exact iff_of_true hdepth (Nat.le_trans hdepth (Nat.le_add_left 1 budget))

theorem faithful_value_array {items : List Value} {p : Value → Prop}
    (h : ∀ v ∈ items, value.Faithful v (p v)) : value.Faithful (.array items) (∀ v ∈ items, p v) := by
  rintro _ (⟨⟩ | ⟨⟩ | ⟨⟩ | ⟨⟩ | ⟨⟩ | @⟨written, hwritten⟩)
  rw [List.forall_mem_map] at h
  refine readsBack_of_content ?_ fun budget => ?_
  · intro layout level rest s hrest hs
    have hread := readsBack_list_zero (c := inside none) (written.map (·.2)) (written.map (·.1)) layout level
      rest s hrest hs
    exact (hread.map fun x => (Value.array x.1, x.2)).congr
      (iff_of_false id fun h => Nat.not_succ_le_zero _ h.2)
  · intro layout level rest s hrest hs
    have hitems : ∀ x ∈ written, ReadsBack ((inside (some (readTagged budget))).read 0) x.2
        (p x.1 ∧ x.2.depth ≤ budget) x.1 :=
      fun x hx => h x hx x.2 (hwritten x hx) budget
    refine ((readsBack_list_succ hitems layout level rest s hrest hs).map
      fun x => (Value.array x.1, x.2)).congr ?_
    rw [forall₂_and, List.forall_mem_map, depth, Nat.add_le_add_iff_right, depthItems_le_iff,
      List.forall_mem_map]

theorem faithful_value_object {members : List (String × Value)} (hsorted : Entries.Sorted members)
    {p : Value → Prop} (h : ∀ m ∈ members, value.Faithful m.2 (p m.2)) :
    value.Faithful (.object members) (∀ m ∈ members, p m.2) := by
  let d : Dict Value := ⟨members, hsorted⟩
  rintro _ (⟨⟩ | ⟨⟩ | ⟨⟩ | ⟨⟩ | ⟨⟩ | ⟨⟩ | @⟨_, written, hperm, hwritten⟩)
  have hperm : (written.map fun m => (m.1, m.2.1)).Perm d.entries := hperm
  change ∀ e ∈ d.entries, _ at h
  rw [forall_mem_entries_iff (p := fun v => value.Faithful v (p v)) hperm] at h
  refine readsBack_of_content ?_ fun budget => ?_
  · intro layout level rest s hrest hs
    have hread := readsBack_dict_zero (c := inside none) (written.map fun m => (m.1, m.2.2)) d layout level
      rest s hrest hs
    exact (hread.map fun x => (Value.ofDict x.1, x.2)).congr
      (iff_of_false id fun h => Nat.not_succ_le_zero _ h.2)
  · intro layout level rest s hrest hs
    have hmembers : ∀ m ∈ written, ReadsBack ((inside (some (readTagged budget))).read 0) m.2.2
        (p m.2.1 ∧ m.2.2.depth ≤ budget) m.2.1 :=
      fun m hm => h m hm m.2.2 (hwritten m hm) budget
    refine ((readsBack_dict_succ hperm hmembers layout level rest s hrest hs).map
      fun x => (Value.ofDict x.1, x.2)).congr ?_
    change _ ↔ (∀ e ∈ d.entries, p e.2) ∧ _
    rw [forall₂_and, forall_mem_entries_iff hperm, depth, Nat.add_le_add_iff_right, depthMembers_le_iff,
      List.forall_mem_map]

/-- A value is read back if all numbers inside are finite. -/
theorem faithful_value {v : Value} (hcanonical : v.Canonical)
    (hreal : ∀ x ∈ v.numbers, Binary.isFinite x → RealReadsBack x) :
    value.Faithful v (∀ x ∈ v.numbers, Binary.isFinite x) := by
  induction v using Value.induction with
  | null => exact faithful_value_null.congr (by simp [numbers])
  | bool b =>
    refine (faithful_content (c := flag) (f := Value.bool) (k := .bool) ?_ (fun _ _ => rfl) ?_
      (faithful_flag b)).congr (by simp [numbers])
    · rintro _ ⟨⟩
      exact ⟨_, rfl, rfl⟩
    · rintro _ rfl
      exact Nat.zero_le 1
  | number x =>
    have hnumbers (p : Float → Prop) : (∀ y ∈ (Value.number x).numbers, p y) ↔ p x := by
      simp [numbers]
    rw [hnumbers] at hreal ⊢
    refine faithful_content (c := real) (f := Value.number) (k := .number) ?_ (fun _ _ => rfl) ?_
      (faithful_real hreal)
    · rintro _ ⟨⟩
      exact ⟨_, rfl, rfl⟩
    · rintro _ rfl
      rw [Json.ofFloat]
      split <;> exact Nat.zero_le 1
  | string s =>
    refine (faithful_content (c := text) (f := Value.string) (k := .string) ?_ (fun _ _ => rfl) ?_
      (faithful_text s)).congr (by simp [numbers])
    · rintro _ ⟨⟩
      exact ⟨_, rfl, rfl⟩
    · rintro _ rfl
      exact Nat.zero_le 1
  | bytes b =>
    refine (faithful_content (c := list uint8) (f := Value.bytes) (k := .bytes) ?_ (fun _ _ => rfl) ?_
      (faithful_list fun n _ => faithful_uint8 n)).congr (by simp [numbers])
    · rintro _ ⟨⟩
      exact ⟨_, (list uint8).writes_toTree b, rfl⟩
    · rintro _ ⟨written, -, hwritten, rfl⟩
      refine Nat.succ_le_succ (depthItems_le_iff.mpr (List.forall_mem_map.mpr fun x hx => ?_))
      rw [hwritten x hx]
      exact Nat.le_refl 0
  | array items ih =>
    rw [forall_mem_numbers_array] at hreal ⊢
    rw [Value.Canonical, canonicalItems_iff] at hcanonical
    exact faithful_value_array fun v hv => ih v hv (hcanonical v hv) (hreal v hv)
  | object members ih =>
    rw [forall_mem_numbers_object] at hreal ⊢
    rw [Value.Canonical, canonicalMembers_iff] at hcanonical
    exact faithful_value_object (p := fun v => ∀ x ∈ v.numbers, Binary.isFinite x) hcanonical.1
      fun m hm => ih m hm (hcanonical.2 m hm) (hreal m hm)

end Codec

end FlowEngine
