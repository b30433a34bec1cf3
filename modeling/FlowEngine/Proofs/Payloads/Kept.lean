import FlowEngine.Payload
import FlowEngine.Proofs.Numbers.Integral
import FlowEngine.Proofs.Wire.Tagged
import Mathlib.Data.List.Forall2

/-!
# Payloads on the way through dynamic values

A typed payload travels as a dynamic value: it becomes a tree, the tree becomes a value, and the value
becomes a tree again, from which the next node takes a payload of its own type. On the way the members of
objects are sorted, and all numbers become doubles. So integers are rounded, and doubles that are integers
come back as integers. `Codec.Keeps` says what is left of a payload if it is accepted at the end.

The proofs follow the parts of a codec. Only records need more than their parts: their members come back
in another order, and a field that may be left out must not be taken for one that was.

## Main definitions

* `Value.carried`: what becomes of a tree.
* `Codec.Keeps`, `Fields.Keeps`: how an accepted payload is related to the one that was sent.
* `Fields.Apart`: how the members of an object are shared out among fields.

## Main results

* `Codec.keeps_whole`, `Codec.keeps_real`: numbers.
* `Codec.Keeps.optional`, `Codec.Keeps.list`, `Codec.Keeps.dict`, `Fields.Keeps.record`: containers.
* `Codec.keeps_value`: tagged values.
-/

namespace FlowEngine

open Json

namespace Value

/-! ## Trees -/

/-- What becomes of a tree on the way through a dynamic value. -/
def carried (json : Json) : Json := (ofJson json).toJson

theorem itemsOfJson_eq_map (items : List Json) : itemsOfJson items = items.map ofJson := by
  induction items with
  | nil => rfl
  | cons item items ih => rw [itemsOfJson, ih, List.map_cons]

theorem membersOfJson_eq_map (members : List (String × Json)) :
    membersOfJson members = members.map fun m => (m.1, ofJson m.2) := by
  induction members with
  | nil => rfl
  | cons m members ih =>
    obtain ⟨key, value⟩ := m
    rw [membersOfJson, ih, List.map_cons]

theorem itemsToJson_eq_map (items : List Value) : itemsToJson items = items.map toJson := by
  induction items with
  | nil => rfl
  | cons item items ih => rw [itemsToJson, ih, List.map_cons]

theorem membersToJson_eq_map (members : List (String × Value)) :
    membersToJson members = members.map fun m => (m.1, toJson m.2) := by
  induction members with
  | nil => rfl
  | cons m members ih =>
    obtain ⟨key, value⟩ := m
    rw [membersToJson, ih, List.map_cons]

theorem carried_array (items : List Json) : carried (.array items) = .array (items.map carried) := by
  rw [carried, ofJson, toJson, itemsOfJson_eq_map, itemsToJson_eq_map, List.map_map]
  rfl

/-- The members of an object come back sorted. -/
theorem carried_object (members : List (String × Json)) :
    carried (.object members) =
      .object ((Entries.normalize (members.map fun m => (m.1, ofJson m.2))).map fun m => (m.1, toJson m.2)) := by
  rw [carried, ofJson, ofMembers, toJson, membersOfJson_eq_map, membersToJson_eq_map]

/-- Members that are sorted come back as they are. -/
theorem carried_object_of_sorted {members : List (String × Json)} (h : Entries.Sorted members) :
    carried (.object members) = .object (members.map fun m => (m.1, carried m.2)) := by
  have hsorted : Entries.Sorted (members.map fun m => (m.1, ofJson m.2)) :=
    h.map_values ofJson
  rw [carried_object, hsorted.normalize_eq, List.map_map]
  rfl

/-- No member gets lost if keys are different. -/
theorem exists_carried_object {members : List (String × Json)} (h : (members.map Prod.fst).Nodup) :
    ∃ members', carried (.object members) = .object members' ∧
      ∀ m ∈ members, (m.1, carried m.2) ∈ members' := by
  have hkeys : (members.map fun m => (m.1, ofJson m.2)).map Prod.fst = members.map Prod.fst := by
    rw [List.map_map]
    rfl
  refine ⟨_, carried_object members, fun m hm => List.mem_map.mpr ⟨(m.1, ofJson m.2), ?_, rfl⟩⟩
  exact Entries.mem_normalize_of_nodup (hkeys ▸ h) (List.mem_map_of_mem hm)

/-! ## Numbers -/

/-- How a number stands in plain JSON. -/
theorem numberToJson_cases (x : Float) :
    (∃ n, Binary.int? x = some n ∧ n.natAbs < UInt64.size / 2 ∧ numberToJson x = .number (.whole n)) ∨
      (Binary.isFinite x ∧ numberToJson x = .number (.real x)) ∨
      (¬ Binary.isFinite x ∧ numberToJson x = .null) := by
  have hreal : numberToJson x = .ofFloat x → (Binary.isFinite x ∧ numberToJson x = .number (.real x)) ∨
      (¬ Binary.isFinite x ∧ numberToJson x = .null) := by
    intro h
    rw [h, Json.ofFloat]
    split
    · exact .inl ⟨‹_›, rfl⟩
    · exact .inr ⟨‹_›, rfl⟩
  cases hn : Binary.int? x with
  | none => exact .inr (hreal (by rw [numberToJson, hn]))
  | some n =>
    by_cases hlt : n.natAbs < UInt64.size / 2
    · refine .inl ⟨n, rfl, hlt, ?_⟩
      simp only [numberToJson, hn, if_pos hlt]
    · refine .inr (hreal ?_)
      simp only [numberToJson, hn, if_neg hlt]

/-- A finite double comes back as the same number. -/
theorem exists_numberToJson {x : Float} (h : Binary.isFinite x) :
    ∃ n, numberToJson x = .number n ∧ (x == n.toFloat) = true := by
  rcases numberToJson_cases x with ⟨n, hn, -, hx⟩ | ⟨-, hx⟩ | ⟨hinfinite, -⟩
  · exact ⟨.whole n, hx, Binary.beq_whole_of_int? h hn⟩
  · exact ⟨.real x, hx, Binary.beq_self h⟩
  · exact absurd h hinfinite

/-- An integer of 64 bits comes back as a number, and if as an integer then as the nearest that is a
double. -/
theorem exists_carried_whole {n : Int} (h : n.natAbs < UInt64.size) :
    ∃ n', carried (.number (.whole n)) = .number n' ∧ ∀ m, n' = .whole m → Binary.Rounded n m := by
  obtain ⟨m, hm, hrounded⟩ := Binary.exists_rounded_whole h
  have hfinite : Json.ofFloat (Number.whole n).toFloat = .number (.real (Number.whole n).toFloat) :=
    if_pos (isFinite_whole h)
  change ∃ n', numberToJson (Number.whole n).toFloat = .number n' ∧ _
  simp only [numberToJson, hm]
  split
  · refine ⟨.whole m, rfl, ?_⟩
    rintro _ ⟨⟩
    exact hrounded
  · exact ⟨_, hfinite, nofun⟩

end Value

open Value

namespace Codec

variable {α β : Type} {c : Codec α} {nullable : Bool} {finite : α → Prop} {near : α → α → Prop}

/-! ## Codecs -/

/-- A payload that is accepted after it has been sent is near the one that was sent. Unless the type is
nullable, it does not come back as null. -/
structure Keeps (c : Codec α) (nullable : Bool) (finite : α → Prop) (near : α → α → Prop) : Prop where
  gives : ∀ a, finite a → Gives (c.ofTree (carried (c.toTree a))) (near a)
  ne_null : nullable = false → ∀ a, finite a → carried (c.toTree a) ≠ .null

theorem keeps_text : text.Keeps false (fun _ => True) Eq := ⟨fun _ _ => .of_ok rfl, fun _ _ _ => nofun⟩

theorem keeps_flag : flag.Keeps false (fun _ => True) Eq := ⟨fun _ _ => .of_ok rfl, fun _ _ _ => nofun⟩

/-- Integers that fit in 64 bits are rounded, or refused. -/
theorem keeps_whole (name : String) (least greatest : Int) :
    (whole name least greatest).Keeps false (fun n => n.natAbs < UInt64.size)
      (fun n m => Binary.Rounded n m ∧ least ≤ m ∧ m ≤ greatest) := by
  constructor
  · intro n hn
    obtain ⟨n', hcarried, hrounded⟩ := exists_carried_whole hn
    change Gives ((whole name least greatest).ofTree (carried (.number (.whole n)))) _
    rw [hcarried]
    cases n' with
    | whole m =>
      change Gives (if least ≤ m ∧ m ≤ greatest then _ else _) _
      split
      · rename_i hm
        exact .of_ok ⟨hrounded m rfl, hm⟩
      · exact .of_error _
    | real x => exact .of_error _
  · intro _ n hn
    obtain ⟨n', hcarried, -⟩ := exists_carried_whole hn
    change carried (.number (.whole n)) ≠ .null
    rw [hcarried]
    nofun

/-- A type of integers with bounds. -/
theorem keeps_imap_whole {name : String} {least greatest : Int} {f : Int → β} {g : β → Int}
    {near : β → β → Prop} (hsize : ∀ b, (g b).natAbs < UInt64.size)
    (h : ∀ b m, Binary.Rounded (g b) m → least ≤ m → m ≤ greatest → near b (f m)) :
    ((whole name least greatest).imap f g).Keeps false (fun _ => True) near := by
  have hwhole := keeps_whole name least greatest
  constructor
  · intro b _
    exact .map ((hwhole.gives (g b) (hsize b)).imp fun m hm => h b m hm.1 hm.2.1 hm.2.2)
  · exact fun hnull b _ => hwhole.ne_null hnull (g b) (hsize b)

theorem keeps_uint8 : uint8.Keeps false (fun _ => True) Eq := by
  refine keeps_imap_whole (fun b => ?_) fun b m hm _ _ => ?_
  · exact Nat.lt_trans b.toNat_lt (by decide)
  · have hlt : b.toNat < 256 := b.toNat_lt
    rw [hm.eq_of_le (Nat.le_trans (Nat.le_of_lt hlt) (by decide)), Int.toNat_natCast, UInt8.ofNat_toNat]

theorem keeps_uint32 : uint32.Keeps false (fun _ => True) Eq := by
  refine keeps_imap_whole (fun b => ?_) fun b m hm _ _ => ?_
  · exact Nat.lt_trans b.toNat_lt (by decide)
  · have hlt : b.toNat < 2 ^ 32 := b.toNat_lt
    rw [hm.eq_of_le (Nat.le_trans (Nat.le_of_lt hlt) (by decide)), Int.toNat_natCast, UInt32.ofNat_toNat]

theorem keeps_int32 : int32.Keeps false (fun _ => True) Eq := by
  have hsmall (b : Int32) : b.toInt.natAbs ≤ 2 ^ 31 := by
    have hle := b.toInt_le
    have hge := b.minValue_le_toInt
    have hleast : Int32.minValue.toInt = -2147483648 := rfl
    have hgreatest : Int32.maxValue.toInt = 2147483647 := rfl
    omega
  refine keeps_imap_whole (fun b => ?_) fun b m hm _ _ => ?_
  · exact Nat.lt_of_le_of_lt (hsmall b) (by decide)
  · rw [hm.eq_of_le (Nat.le_trans (hsmall b) (by decide)), Int32.ofInt_toInt]

theorem keeps_int64 : int64.Keeps false (fun _ => True) fun a b => Binary.Rounded a.toInt b.toInt := by
  refine keeps_imap_whole (fun b => ?_) fun b m hm hle hge => ?_
  · have hle := b.toInt_lt
    have hge := b.le_toInt
    have hsize : UInt64.size = 2 ^ 64 := rfl
    omega
  · rw [Int64.toInt_ofInt_of_le hle (Int.lt_of_le_of_lt hge (by decide))]
    exact hm

/-- Unsigned integers of 64 bits, whatever they are called. -/
theorem keeps_word (name : String) :
    (word name).Keeps false (fun _ => True) fun a b => Binary.Rounded a.toNat b.toNat := by
  refine keeps_imap_whole (fun b => b.toNat_lt) fun b m hm hle hge => ?_
  obtain ⟨k, rfl⟩ := Int.eq_ofNat_of_zero_le hle
  have hlt : k < UInt64.size := by
    have hsize : ((UInt64.size - 1 : Nat) : Int) = 18446744073709551615 := rfl
    have hsize' : UInt64.size = 18446744073709551616 := rfl
    omega
  rw [Int.toNat_natCast, UInt64.toNat_ofNat_of_lt' hlt]
  exact hm

theorem keeps_size : (size.imap Size.mk Size.val).Keeps false (fun _ => True)
    fun a b => Binary.Rounded a.val.toNat b.val.toNat := by
  have hword := keeps_word "usize"
  constructor
  · exact fun a _ => .map (hword.gives a.val trivial)
  · exact fun hnull a _ => hword.ne_null hnull a.val trivial

/-- Finite doubles come back as equal numbers. -/
theorem keeps_real : real.Keeps false (fun x => Binary.isFinite x) fun x y => (x == y) = true := by
  have hcarried {x : Float} (hx : Binary.isFinite x) :
      ∃ n, carried (real.toTree x) = .number n ∧ (x == n.toFloat) = true := by
    have htree : real.toTree x = .number (.real x) := if_pos hx
    rw [htree]
    exact exists_numberToJson hx
  constructor
  · intro x hx
    obtain ⟨n, hn, hbeq⟩ := hcarried hx
    rw [hn]
    exact .of_ok hbeq
  · intro _ x hx
    obtain ⟨n, hn, -⟩ := hcarried hx
    rw [hn]
    nofun

theorem ofTree_optional {json : Json} (h : json ≠ .null) :
    (optional c).ofTree json = (c.ofTree json).map some := by
  cases json with
  | null => exact absurd rfl h
  | _ => rfl

/-- A payload that does not come back as null is not taken for one that is missing. -/
theorem Keeps.optional (h : c.Keeps false finite near) :
    (optional c).Keeps true (fun o => ∀ a ∈ o, finite a) (Option.Rel near) := by
  refine ⟨fun o ho => ?_, nofun⟩
  cases o with
  | none => exact .of_ok .none
  | some a =>
    have ha : finite a := ho a rfl
    change Gives ((Codec.optional c).ofTree (carried (c.toTree a))) _
    rw [ofTree_optional (h.ne_null rfl a ha)]
    exact .map ((h.gives a ha).imp fun b hb => .some hb)

theorem Keeps.list (h : c.Keeps nullable finite near) :
    (list c).Keeps false (fun items => ∀ a ∈ items, finite a) (List.Forall₂ near) := by
  refine ⟨fun items hitems => ?_, fun _ _ _ => nofun⟩
  change Gives ((Codec.list c).ofTree (carried (.array (items.map c.toTree)))) _
  rw [carried_array, List.map_map]
  change Gives ((items.map (carried ∘ c.toTree)).mapM c.ofTree) _
  rw [List.mapM_map]
  exact .mapM fun a ha => h.gives a (hitems a ha)

theorem keys_eq_of_forall₂ {es : Entries α} {fs : Entries β} {near : String × α → String × β → Prop}
    (h : List.Forall₂ (fun e f => e.1 = f.1 ∧ near e f) es fs) :
    fs.map Prod.fst = es.map Prod.fst := by
  induction h with
  | nil => rfl
  | cons hnear _ ih => rw [List.map_cons, List.map_cons, ih, hnear.1]

/-- Entries come back under their keys. -/
theorem Keeps.dict (h : c.Keeps nullable finite near) :
    (dict c).Keeps false (fun d => ∀ e ∈ d.entries, finite e.2)
      fun d d' => List.Forall₂ (fun e e' => e.1 = e'.1 ∧ near e.2 e'.2) d.entries d'.entries := by
  refine ⟨fun d hd => ?_, fun _ _ _ => nofun⟩
  have hsorted : Entries.Sorted (d.entries.map fun e => (e.1, c.toTree e.2)) :=
    d.sorted.map_values c.toTree
  change Gives ((Codec.dict c).ofTree (carried (.object (d.entries.map fun e => (e.1, c.toTree e.2))))) _
  rw [carried_object_of_sorted hsorted, List.map_map]
  refine .bind (p := List.Forall₂ (fun e e' => e.1 = e'.1 ∧ near e.2 e'.2) d.entries) ?_ ?_
  · rw [List.mapM_map]
    exact .mapM fun e he => .map ((h.gives e.2 (hd e he)).imp fun a ha => ⟨rfl, ha⟩)
  · intro entries hentries
    refine .of_ok ?_
    change List.Forall₂ _ d.entries (Entries.normalize entries)
    rw [(d.sorted.of_keys (keys_eq_of_forall₂ hentries)).normalize_eq]
    exact hentries

end Codec

/-! ## Records -/

namespace Fields

variable {τ σ : Type} {fields : Fields τ σ} {finite : τ → Prop} {near : τ → τ → Prop}

/-- What is taken from members among which are those of the fields, as they come back, is near what was
sent. The fields have different names. -/
structure Keeps (fields : Fields τ σ) (finite : τ → Prop) (near : τ → τ → Prop) : Prop where
  gives : ∀ values, finite values → ∀ members : List (String × Json),
    (∀ m ∈ fields.toMembers values, (m.1, carried m.2) ∈ members) →
      Gives (fields.fillMembers members fields.vacant >>= fields.complete) (near values)
  nodup : fields.names.Nodup

theorem map_fst_toMembers (fields : Fields τ σ) (values : τ) :
    (fields.toMembers values).map Prod.fst = fields.names := by
  induction fields with
  | nil => rfl
  | cons field rest ih => rw [toMembers, List.map_cons, ih, names]

section Apart

variable {α : Type} {field : Field α} {members : List (String × Json)} {slot : Option α} {slots : σ}
  {filled : Option α × σ} {key : String} {json : Json}

/-- Members are read for the first field and for the others as if they were apart: the others see what is
left, and the first slot holds what its member gives, if there is one. -/
structure Apart (fields : Fields τ σ) (field : Field α) (members : List (String × Json)) (slot : Option α)
    (slots : σ) (filled : Option α × σ) : Prop where
  others : fields.fillMembers (members.filter (·.1 ≠ field.name)) slots = .ok filled.2
  held : slot.isSome → filled.1 = slot
  taken : ∀ json, (field.name, json) ∈ members → ∃ a, field.codec.ofTree json = .ok a ∧ filled.1 = some a

/-- The member of the first field comes before members. -/
theorem Apart.own {a : α} (hjson : field.codec.ofTree json = .ok a)
    (h : fields.Apart field members (some a) slots filled) :
    fields.Apart field ((field.name, json) :: members) none slots filled where
  others := by
    rw [List.filter_cons_of_neg (by simp)]
    exact h.others
  held := by simp
  taken json' hmem := by
    rcases List.mem_cons.mp hmem with heq | hmem
    · obtain ⟨-, rfl⟩ := Prod.mk.inj heq
      exact ⟨a, hjson, h.held rfl⟩
    · exact h.taken json' hmem

/-- A member that is not that of the first field comes before members. -/
theorem Apart.other {slots' : σ} (hkey : key ≠ field.name)
    (hfill : fields.fillMembers ((key, json) :: members.filter (·.1 ≠ field.name)) slots =
      fields.fillMembers (members.filter (·.1 ≠ field.name)) slots')
    (h : fields.Apart field members slot slots' filled) :
    fields.Apart field ((key, json) :: members) slot slots filled where
  others := by
    rw [List.filter_cons_of_pos (by simpa using hkey), hfill]
    exact h.others
  held := h.held
  taken json' hmem := h.taken json' <|
    (List.mem_cons.mp hmem).resolve_left fun heq => hkey (Prod.mk.inj heq).1.symm

theorem gives_fillMembers_cons (members : List (String × Json)) (slot : Option α) (slots : σ) :
    Gives ((Fields.cons field fields).fillMembers members (slot, slots))
      (fields.Apart field members slot slots) := by
  induction members generalizing slot slots with
  | nil => exact .of_ok ⟨rfl, fun _ => rfl, fun _ hmem => absurd hmem List.not_mem_nil⟩
  | cons m members ih =>
    obtain ⟨key, json⟩ := m
    rw [fillMembers, fill]
    by_cases hkey : key = field.name
    · subst hkey
      rw [if_pos rfl]
      cases slot with
      | some a => exact .of_error _
      | none =>
        cases hjson : field.codec.ofTree json with
        | error fault => exact .of_error _
        | ok a => exact (ih (some a) slots).imp fun _ => .own hjson
    · rw [if_neg hkey]
      cases hfill : fields.fill key (fun codec => (codec.ofTree json).map fun a => (a, ())) slots with
      | none =>
        refine (ih slot slots).imp fun _ => .other hkey ?_
        rw [fillMembers, hfill]
      | some result =>
        cases result with
        | error fault => exact .of_error _
        | ok next =>
          refine (ih slot next.1).imp fun _ => .other hkey ?_
          rw [fillMembers, hfill]
          rfl

end Apart

theorem keeps_nil : Fields.nil.Keeps (fun _ => True) fun _ _ => True :=
  ⟨fun _ _ _ _ _ _ => trivial, List.nodup_nil⟩

theorem Keeps.cons {α : Type} {nullable : Bool} {field : Field α} {p : α → Prop} {r : α → α → Prop}
    (hrest : fields.Keeps finite near) (h : field.codec.Keeps nullable p r)
    (hname : field.name ∉ fields.names) :
    (Fields.cons field fields).Keeps (fun values => p values.1 ∧ finite values.2)
      fun values values' => r values.1 values'.1 ∧ near values.2 values'.2 := by
  refine ⟨?_, List.nodup_cons.mpr ⟨hname, hrest.nodup⟩⟩
  rintro ⟨a, values⟩ ⟨ha, hvalues⟩ members hmembers
  rw [toMembers, List.forall_mem_cons] at hmembers
  refine .bind (gives_fillMembers_cons members none fields.vacant) ?_
  rintro ⟨slot, slots⟩ hapart
  obtain ⟨b, hb, rfl⟩ := hapart.taken _ hmembers.1
  have hnear : r a b := h.gives a ha b hb
  have hothers : ∀ m ∈ fields.toMembers values,
      (m.1, carried m.2) ∈ members.filter (fun m => m.1 ≠ field.name) := by
    intro m hm
    have hne : m.1 ≠ field.name := fun heq =>
      hname (heq ▸ fields.map_fst_toMembers values ▸ List.mem_map_of_mem hm)
    exact List.mem_filter.mpr ⟨hmembers.2 m hm, decide_eq_true hne⟩
  have hkept := hrest.gives values hvalues _ hothers
  rw [hapart.others] at hkept
  rw [complete, Option.some_or]
  exact .map (hkept.imp fun values' hvalues' => ⟨hnear, hvalues'⟩)

/-- A record is kept if its fields are. -/
theorem Keeps.record {α : Type} {name : String} {build : τ → α} {parts : α → τ}
    (h : fields.Keeps finite near) (hparts : ∀ values, parts (build values) = values) :
    (Codec.record name fields build parts).Keeps false (fun a => finite (parts a))
      fun a b => near (parts a) (parts b) := by
  refine ⟨fun a ha => ?_, fun _ _ _ => nofun⟩
  have hkeys : ((fields.toMembers (parts a)).map Prod.fst).Nodup := by
    rw [fields.map_fst_toMembers]
    exact h.nodup
  obtain ⟨members, hcarried, hmembers⟩ := exists_carried_object hkeys
  have hread : (Codec.record name fields build parts).ofTree (.object members) =
      (fields.fillMembers members fields.vacant >>= fields.complete).map build := by
    change (fields.fillMembers members fields.vacant >>= fun slots => _) = _
    cases fields.fillMembers members fields.vacant with
    | error fault => rfl
    | ok slots =>
      change (fields.complete slots >>= _) = (fields.complete slots).map build
      cases fields.complete slots <;> rfl
  change Gives ((Codec.record name fields build parts).ofTree (carried (.object (fields.toMembers (parts a))))) _
  rw [hcarried, hread]
  refine .map ((h.gives (parts a) ha members hmembers).imp fun values hvalues => ?_)
  rw [hparts]
  exact hvalues

end Fields

/-! ## Tagged values -/

namespace Value

theorem sameItems_of_forall₂ {items items' : List Value}
    (h : List.Forall₂ (fun v w => (v == w) = true) items items') : sameItems items items' := by
  induction h with
  | nil => rfl
  | cons hv _ ih => exact Bool.and_eq_true_iff.mpr ⟨hv, ih⟩

theorem sameMembers_of_forall₂ {members members' : List (String × Value)}
    (h : List.Forall₂ (fun m m' => m.1 = m'.1 ∧ (m.2 == m'.2) = true) members members') :
    sameMembers members members' := by
  induction h with
  | nil => rfl
  | @cons m m' _ _ hm _ ih =>
    obtain ⟨key, v⟩ := m
    obtain ⟨key', w⟩ := m'
    obtain ⟨rfl, hv⟩ := hm
    rw [sameMembers, beq_self_eq_true, Bool.true_and, Bool.and_eq_true]
    exact ⟨hv, ih⟩

/-- A tagged value comes back with its kind. -/
theorem carried_tagged (k : Kind) (content : Json) :
    carried (tagged k content) = tagged k (carried content) := by
  have hlt : kindKey < contentKey := by decide
  have hsorted : Entries.Sorted [(kindKey, Json.string k.name), (contentKey, content)] :=
    List.pairwise_pair.mpr hlt
  rw [tagged, carried_object_of_sorted hsorted]
  rfl

/-- A tagged value is taken from its content. -/
theorem ofTagged_tagged (k : Kind) (content : Json) :
    ofTagged (tagged k content) .document none = ofTagged content .document (some k) := by
  have hkind : Origin.document.kind (.string k.name) = .ok k := by
    cases k <;> rfl
  change (do
    let k ← Origin.document.kind (.string k.name)
    let v ← ofTagged content .document (some k)
    checkEnd ([] : List (String × Json × Reading))
    return v) = _
  rw [hkind]
  change (ofTagged content .document (some k) >>= fun v => Except.ok v) = _
  cases ofTagged content .document (some k) <;> rfl

/-- A value comes back equal. -/
theorem gives_ofTagged_carried {v : Value} (hcanonical : v.Canonical)
    (hfinite : ∀ x ∈ v.numbers, Binary.isFinite x) :
    Gives (ofTagged (carried (toTagged v)) .document none) fun w => (v == w) = true := by
  induction v using Value.induction with
  | null => exact .of_ok rfl
  | bool b =>
    rw [toTagged, carried_tagged, ofTagged_tagged]
    exact .of_ok (beq_self_eq_true b)
  | number x =>
    have hx : Binary.isFinite x := hfinite x List.mem_cons_self
    obtain ⟨n, hn, hbeq⟩ := exists_numberToJson hx
    have hcarried : carried (Json.ofFloat x) = .number n := by
      rw [Json.ofFloat, if_pos hx]
      exact hn
    rw [toTagged, carried_tagged, ofTagged_tagged, hcarried]
    exact .of_ok hbeq
  | string s =>
    rw [toTagged, carried_tagged, ofTagged_tagged]
    exact .of_ok (beq_self_eq_true s)
  | bytes b =>
    have hkept := Codec.keeps_uint8.list.gives b fun _ _ => trivial
    rw [toTagged, carried_tagged, ofTagged_tagged]
    change Gives (((Codec.list .uint8).ofTree (carried ((Codec.list .uint8).toTree b))).map Value.bytes) _
    refine .map (hkept.imp fun b' hb => ?_)
    rw [List.forall₂_eq_eq_eq] at hb
    exact hb ▸ beq_self_eq_true b
  | array items ih =>
    rw [forall_mem_numbers_array] at hfinite
    rw [Value.Canonical, canonicalItems_iff] at hcanonical
    have hitems : ∀ v ∈ items, Gives (ofTagged (carried (toTagged v)) .document none) fun w => (v == w) = true :=
      fun v hv => ih v hv (hcanonical v hv) (hfinite v hv)
    rw [toTagged, carried_tagged, ofTagged_tagged, itemsToTagged_eq_map, carried_array, ofTagged,
      itemReadings_eq_map, List.map_map, List.mapM_map, List.mapM_map]
    exact .map (.imp (.mapM hitems) fun _ => sameItems_of_forall₂)
  | object members ih =>
    rw [forall_mem_numbers_object] at hfinite
    rw [Value.Canonical, canonicalMembers_iff] at hcanonical
    obtain ⟨hsorted, hcanonical⟩ := hcanonical
    have hmembers : ∀ m ∈ members, Gives ((ofTagged (carried (toTagged m.2)) .document none).map fun w => (m.1, w))
        fun m' => m.1 = m'.1 ∧ (m.2 == m'.2) = true := fun m hm =>
      .map ((ih m hm (hcanonical m hm) (hfinite m hm)).imp fun _ hw => ⟨rfl, hw⟩)
    have htree : Entries.Sorted (members.map fun m => (m.1, toTagged m.2)) :=
      hsorted.map_values toTagged
    rw [toTagged, carried_tagged, ofTagged_tagged, membersToTagged_eq_map, carried_object_of_sorted htree,
      ofTagged, memberReadings_eq_map, List.map_map, List.mapM_map, List.mapM_map]
    refine .map (.imp (.mapM hmembers) fun members' hnear => ?_)
    rw [ofMembers, (hsorted.of_keys (Codec.keys_eq_of_forall₂ hnear)).normalize_eq]
    exact sameMembers_of_forall₂ hnear

end Value

/-- Values come back equal. -/
theorem Codec.keeps_value :
    value.Keeps false (fun v => v.Canonical ∧ ∀ x ∈ v.numbers, Binary.isFinite x) fun v w => (v == w) = true := by
  refine ⟨fun _ hv => gives_ofTagged_carried hv.1 hv.2, fun _ v _ => ?_⟩
  cases v <;> nofun

end FlowEngine
