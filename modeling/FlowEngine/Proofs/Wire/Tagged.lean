import FlowEngine.Proofs.Wire.Accepted
import FlowEngine.Proofs.Wire.Values

/-!
# Tagged values that readers give

Tagged values have many spellings: kind and content as members in either order or as the two items of a
sequence, kinds as names or as objects, in kept content even as numbers. All of them take at least one
container for the value itself and one for its items or members, as the usual spelling does, so a value
that is read can be written again within the same budget. Besides, its numbers are finite and its objects
have increasing keys.

A content that comes before its kind is read as a tree, which is taken apart later; so there are two
proofs, by induction over that tree and over the budgets of readers, with the same case for each kind.

## Main definitions

* `Value.Fits`: a value that can be written within a budget, and is read back.

## Main results

* `Value.gives_ofTagged`: values that are taken from trees.
* `Codec.yields_value`: values that are read.
-/

namespace FlowEngine

open Json

namespace Value

/-! ## Values that fit -/

/-- All trees of a value fit into a budget, its objects have increasing keys, and its numbers are finite. -/
structure Fits (budget : Nat) (v : Value) : Prop where
  shallow : Codec.value.Shallow budget v
  canonical : v.Canonical
  finite : ∀ x ∈ v.numbers, Binary.isFinite x

variable {budget : Nat} {v : Value}

theorem Fits.mono {budget' : Nat} (h : v.Fits budget) (hle : budget ≤ budget') : v.Fits budget' :=
  ⟨fun tree htree => Nat.le_trans (h.shallow tree htree) hle, h.canonical, h.finite⟩

/-- The object of kind and content takes one container. -/
theorem depth_tagged_le (k : Kind) {content : Json} (h : content.depth ≤ budget) :
    (tagged k content).depth ≤ budget + 1 := by
  rw [depth_tagged]
  exact Nat.succ_le_succ h

theorem fits_null : Fits (budget + 1) .null := by
  refine ⟨?_, trivial, nofun⟩
  rintro _ ⟨⟩
  exact Nat.succ_le_succ (Nat.zero_le budget)

theorem fits_bool (b : Bool) : Fits (budget + 1) (.bool b) := by
  refine ⟨?_, trivial, nofun⟩
  rintro _ ⟨⟩
  exact depth_tagged_le .bool (Nat.zero_le budget)

theorem fits_string (s : String) : Fits (budget + 1) (.string s) := by
  refine ⟨?_, trivial, nofun⟩
  rintro _ ⟨⟩
  exact depth_tagged_le .string (Nat.zero_le budget)

theorem fits_number {x : Float} (h : Binary.isFinite x) : Fits (budget + 1) (.number x) := by
  refine ⟨?_, trivial, ?_⟩
  · rintro _ ⟨⟩
    refine depth_tagged_le .number ?_
    rw [Json.ofFloat, if_pos h]
    exact Nat.zero_le budget
  · rw [numbers, List.forall_mem_singleton]
    exact h

theorem fits_bytes (b : List UInt8) (h : 0 < budget) : Fits (budget + 1) (.bytes b) := by
  refine ⟨?_, trivial, nofun⟩
  rintro _ ⟨⟩
  rw [← Nat.sub_add_cancel h]
  have hbytes (n : UInt8) (_ : n ∈ b) : Codec.uint8.Shallow (budget - 1) n := by
    rintro _ rfl
    exact Nat.zero_le _
  exact depth_tagged_le .bytes (Codec.shallow_list hbytes _ (Codec.writes_toTree _ b))

theorem fits_array {items : List Value} (hpos : 0 < budget) (h : ∀ v ∈ items, v.Fits (budget - 1)) :
    Fits (budget + 1) (.array items) := by
  refine ⟨?_, canonicalItems_iff.mpr fun v hv => (h v hv).canonical,
    forall_mem_numbers_array.mpr fun v hv => (h v hv).finite⟩
  rintro _ (⟨⟩ | ⟨⟩ | ⟨⟩ | ⟨⟩ | ⟨⟩ | @⟨written, hwritten⟩)
  rw [← Nat.sub_add_cancel hpos]
  exact depth_tagged_le .array
    (Codec.shallow_list (c := .value) (fun v hv => (h v hv).shallow) _ ⟨written, rfl, hwritten, rfl⟩)

theorem fits_ofDict {d : Dict Value} (hpos : 0 < budget) (h : ∀ m ∈ d.entries, m.2.Fits (budget - 1)) :
    Fits (budget + 1) (ofDict d) := by
  refine ⟨?_, ⟨d.sorted, canonicalMembers_iff.mpr fun m hm => (h m hm).canonical⟩,
    forall_mem_numbers_object.mpr fun m hm => (h m hm).finite⟩
  rintro _ (⟨⟩ | ⟨⟩ | ⟨⟩ | ⟨⟩ | ⟨⟩ | ⟨⟩ | @⟨_, written, hperm, hwritten⟩)
  rw [← Nat.sub_add_cancel hpos]
  exact depth_tagged_le .object
    (Codec.shallow_dict (c := .value) (fun m hm => (h m hm).shallow) _ ⟨written, hperm, hwritten, rfl⟩)

theorem fits_ofMembers {members : List (String × Value)} (hpos : 0 < budget)
    (h : ∀ m ∈ members, m.2.Fits (budget - 1)) : Fits (budget + 1) (ofMembers members) :=
  fits_ofDict (d := .ofList members) hpos fun m hm => h m (Entries.mem_of_mem_normalize hm)

/-! ## Values from trees -/

theorem itemReadings_eq_map (items : List Json) :
    itemReadings items = items.map fun item => (item, ofTagged item) := by
  induction items with
  | nil => rfl
  | cons item items ih => rw [itemReadings, ih, List.map_cons]

theorem memberReadings_eq_map (members : List (String × Json)) :
    memberReadings members = members.map fun m => (m.1, m.2, ofTagged m.2) := by
  induction members with
  | nil => rfl
  | cons m members ih =>
    obtain ⟨key, value⟩ := m
    rw [memberReadings, ih, List.map_cons]

/-- A content that is no container of values needs no more than its tree does. -/
theorem gives_scalarContent {json : Json} (h : json.Finite) (k : Kind) :
    Gives (scalarContent json k) (Fits (json.depth + 1)) := by
  cases k with
  | null =>
    cases json with
    | null => exact .of_ok fits_null
    | _ => exact .of_error _
  | bool => exact .map fun b _ => fits_bool b
  | number =>
    cases h with
    | number h => exact .of_ok (fits_number h)
    | _ => exact .of_error _
  | string => exact .map fun s _ => fits_string s
  | bytes =>
    cases json with
    | array items => exact .map fun b _ => fits_bytes b (Nat.zero_lt_succ _)
    | _ => exact .of_error _
  | array => exact .of_error _
  | object => exact .of_error _

theorem gives_ofPair (origin : Origin) {readings : List (Json × Reading)}
    (h : ∀ r ∈ readings, ∀ k, Gives (r.2 origin (some k)) (Fits budget)) :
    Gives (ofPair origin readings) (Fits budget) := by
  cases readings with
  | nil => exact .of_error _
  | cons kind readings =>
    refine .skip fun k => ?_
    cases readings with
    | nil => exact .of_error _
    | cons content readings =>
      refine .bind (h content (List.mem_cons_of_mem _ List.mem_cons_self) k) fun v hv => ?_
      split
      · exact .of_ok hv
      · exact .of_error _

theorem gives_ofParts (origin : Origin) {parts : List (String × Json × Reading)} (hpos : 0 < budget)
    (h : ∀ r ∈ parts, ∀ origin k, Gives (r.2.2 origin (some k)) (Fits budget)) :
    Gives (ofParts origin parts) (Fits budget) := by
  rcases parts with _ | ⟨⟨key, json, reading⟩, parts⟩
  · exact .of_error _
  rw [List.forall_mem_cons] at h
  unfold ofParts
  dsimp only
  split
  · refine .skip fun k => ?_
    rcases parts with _ | ⟨⟨key, json, reading⟩, parts⟩
    · dsimp only
      split
      · exact .of_ok (fits_null.mono hpos)
      · exact .of_error _
    · dsimp only
      split
      · exact .of_error _
      · exact .bind (h.2 _ List.mem_cons_self origin k) fun v hv => .skip fun _ => .of_ok hv
  · rcases parts with _ | ⟨⟨key, json, reading'⟩, parts⟩
    · exact .of_error _
    · dsimp only
      split
      · refine .skip fun k => ?_
        exact .bind (h.1 .kept k) fun v hv => .skip fun _ => .of_ok hv
      · exact .of_error _

/-- A whole value that is taken from a tree needs no more than the tree does, and a content one container
more. -/
theorem gives_ofTagged {json : Json} (h : json.Finite) (origin : Origin) :
    Gives (ofTagged json origin none) (Fits json.depth) ∧
      ∀ k, Gives (ofTagged json origin (some k)) (Fits (json.depth + 1)) := by
  induction h generalizing origin with
  | null => exact ⟨.of_error _, gives_scalarContent .null⟩
  | bool b => exact ⟨.of_error _, gives_scalarContent (.bool b)⟩
  | number h => exact ⟨.of_error _, gives_scalarContent (.number h)⟩
  | string s => exact ⟨.of_error _, gives_scalarContent (.string s)⟩
  | @array items h ih =>
    have hdepth : ∀ item ∈ items, item.depth + 1 ≤ (Json.array items).depth := fun item hm =>
      Nat.succ_le_succ (depthItems_le_iff.mp (Nat.le_refl _) item hm)
    constructor
    · rw [ofTagged, itemReadings_eq_map]
      refine gives_ofPair origin (List.forall_mem_map.mpr fun item hm k => ?_)
      exact ((ih item hm origin).2 k).imp fun v hv => hv.mono (hdepth item hm)
    · intro k
      by_cases hk : k = .array
      · subst hk
        rw [ofTagged, itemReadings_eq_map]
        refine .map (.imp (.mapM_all (q := Fits ((Json.array items).depth - 1))
          (List.forall_mem_map.mpr fun item hm => ?_)) fun vs hvs => fits_array (Nat.zero_lt_succ _) hvs)
        exact (ih item hm origin).1.imp fun v hv => hv.mono (Nat.le_sub_one_of_lt (hdepth item hm))
      · have hscalar : ofTagged (.array items) origin (some k) = scalarContent (.array items) k := by
          cases k <;> first | rfl | exact absurd rfl hk
        rw [hscalar]
        exact gives_scalarContent (.array h) k
  | @object members h ih =>
    have hdepth : ∀ m ∈ members, m.2.depth + 1 ≤ (Json.object members).depth := fun m hm =>
      Nat.succ_le_succ (depthMembers_le_iff.mp (Nat.le_refl _) m hm)
    constructor
    · rw [ofTagged, memberReadings_eq_map]
      refine gives_ofParts origin (Nat.zero_lt_succ _) fun r hr origin k => ?_
      obtain ⟨m, hm, rfl⟩ := List.mem_map.mp (List.mem_filter.mp hr).1
      exact ((ih m hm origin).2 k).imp fun v hv => hv.mono (hdepth m hm)
    · intro k
      by_cases hk : k = .object
      · subst hk
        rw [ofTagged, memberReadings_eq_map]
        refine .map (.imp (.mapM_all (q := fun m : String × Value => m.2.Fits ((Json.object members).depth - 1))
          (List.forall_mem_map.mpr fun m hm => .map ?_)) fun ms hms => fits_ofMembers (Nat.zero_lt_succ _) hms)
        exact (ih m hm origin).1.imp fun v hv => hv.mono (Nat.le_sub_one_of_lt (hdepth m hm))
      · have hscalar : ofTagged (.object members) origin (some k) = scalarContent (.object members) k := by
          cases k <;> first | rfl | exact absurd rfl hk
        rw [hscalar]
        exact gives_scalarContent (.object h) k

/-! ## Values from text -/

section Read

variable {nested : Option Reader}
  (hnested : ∀ read ∈ nested, 0 < budget ∧ ∀ s, Gives (read s) fun x => x.1.Fits (budget - 1))
include hnested

theorem budget_pos_of_lt (h : 0 < if nested.isSome then 1 else 0) : 0 < budget := by
  cases nested with
  | none => exact absurd h (Nat.lt_irrefl 0)
  | some read => exact (hnested read rfl).1

theorem gives_inside (inner : Nat) (s : Glyphs) :
    Gives ((inside nested).read inner s) fun x => x.1.Fits (budget - 1) := by
  cases nested with
  | none => exact .of_error _
  | some read => exact (hnested read rfl).2 s

theorem gives_readContent (k : Kind) (s : Glyphs) :
    Gives (readContent nested k s) fun x => x.1.Fits (budget + 1) := by
  cases k with
  | null =>
    simp only [readContent, readNullContent]
    split
    · exact .of_error _
    · exact .map fun _ _ => fits_null
    · split <;> exact .of_error _
  | bool => exact .map fun x _ => fits_bool x.1
  | number => exact .map ((Codec.yields_real s).imp fun x hx => fits_number hx.2)
  | string => exact .map fun x _ => fits_string x.1
  | bytes =>
    refine .map ((Codec.gives_list (p := fun _ => True) (fun _ _ _ _ _ => trivial) s).imp fun x hx => ?_)
    exact fits_bytes x.1 (budget_pos_of_lt hnested hx.1)
  | array =>
    refine .map ((Codec.gives_list (fun inner _ => gives_inside hnested inner) s).imp fun x hx => ?_)
    exact fits_array (budget_pos_of_lt hnested hx.1) hx.2
  | object =>
    refine .map ((Codec.gives_dict (fun inner _ => gives_inside hnested inner) s).imp fun x hx => ?_)
    exact fits_ofDict (budget_pos_of_lt hnested hx.1) hx.2

theorem gives_readPair (s : Glyphs) : Gives (readPair nested s) fun x => x.1.Fits (budget + 1) := by
  refine .skip fun next => ?_
  cases next with
  | done s => exact .of_error _
  | more s =>
    refine .skip fun (k, s) => .skip fun next => ?_
    cases next with
    | done s => exact .of_error _
    | more s => exact gives_readContent hnested k s

theorem gives_readParts (s : Glyphs) : Gives (readParts budget nested s) fun x => x.1.Fits (budget + 1) := by
  refine .skip fun (part, s) => ?_
  cases part with
  | none => exact .of_error _
  | some key =>
    refine .skip fun s => ?_
    dsimp only
    split
    · refine .skip fun (k, s) => .skip fun (part, s) => ?_
      cases part with
      | none =>
        dsimp only
        split
        · exact .of_ok fits_null
        · exact .of_error _
      | some key =>
        dsimp only
        split
        · exact .of_error _
        · refine .skip fun s => .bind (gives_readContent hnested k s) fun (v, s) hv => ?_
          exact .skip fun s => .of_ok hv
    · refine .bind (gives_read budget s) fun (json, s) hjson => .skip fun (part, s) => ?_
      cases part with
      | none => exact .of_error _
      | some key =>
        dsimp only
        split
        · refine .skip fun s => .skip fun (k, s) => ?_
          refine .bind ((gives_ofTagged hjson.2 .kept).2 k) fun v hv => .skip fun s => .of_ok ?_
          exact hv.mono (Nat.succ_le_succ hjson.1)
        · exact .of_error _

theorem gives_readTaggedWith (s : Glyphs) :
    Gives (readTaggedWith budget nested s) fun x => x.1.Fits (budget + 1) := by
  rw [readTaggedWith]
  split
  · exact .of_error _
  · refine .bind (gives_readParts hnested _) ?_
    rintro ⟨v, s⟩ hv
    exact .skip fun s => .of_ok hv
  · refine .bind (gives_readPair hnested _) ?_
    rintro ⟨v, s⟩ hv
    exact .skip fun s => .of_ok hv
  · exact .of_error _

end Read

/-- A value that is read fits into the budget. -/
theorem gives_readTagged (budget : Nat) (s : Glyphs) :
    Gives (readTagged budget s) fun x => x.1.Fits budget := by
  induction budget using Nat.twoStepInduction generalizing s with
  | zero =>
    change Gives (readTaggedTooDeep s) _
    rw [readTaggedTooDeep]
    split <;> exact .of_error _
  | one => exact gives_readTaggedWith (by rintro _ ⟨⟩) s
  | more budget ih _ =>
    refine gives_readTaggedWith ?_ s
    rintro _ ⟨⟩
    exact ⟨Nat.zero_lt_succ budget, ih⟩

end Value

/-- A value that is read can be written within the same budget, its objects have increasing keys, and its
numbers are finite. -/
theorem Codec.yields_value (budget : Nat) : value.Yields budget (Value.Fits budget) :=
  fun s => (Value.gives_readTagged budget s).imp fun _ hx => ⟨hx.shallow, hx⟩

end FlowEngine
