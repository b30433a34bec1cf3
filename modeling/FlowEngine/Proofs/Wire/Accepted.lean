import FlowEngine.Codec.Record
import FlowEngine.Proofs.Gives
import FlowEngine.Proofs.Numbers.Finite
import FlowEngine.Proofs.Wire.Faithful

/-!
# What readers accept

A document can spell a value in many ways, so little is known about a document that is accepted. But
something is known about the value that it gives. The number that a numeral denotes is finite, however it
is written, and no tree of a value nests more deeply than the document it was read from was allowed
to. The latter is not obvious: fields that a document leaves out stand in the trees of the value, and in
the other direction a document may have containers where the trees have none. So readers are followed step
by step, with `Gives` for what holds of all results.

As for `Codec.Faithful`, codecs are built from parts, and so are the proofs. The invariant for the fields of
a record is one about slots: whatever fills a slot fits.

## Main definitions

* `Json.Finite`: all numbers inside a tree are finite.
* `Codec.Shallow`: no tree of a value nests too deeply.
* `Codec.Yields`, `Fields.Yields`: what is read fits into the budget, and satisfies a predicate.

## Main results

* `Json.gives_readNumber`: numbers are finite.
* `Json.gives_read`: trees are finite, and fit into the budget.
* `Codec.yields_list`, `Codec.yields_dict`, `Codec.yields_record`: containers and records.
-/

namespace FlowEngine

namespace Json

/-! ## Numbers -/

theorem significand_lt {value : Nat} (h : value < UInt64.size) (digits : List Nat) :
    (significand value digits).1 < UInt64.size := by
  induction digits generalizing value with
  | nil => exact h
  | cons d digits ih =>
    rw [significand]
    split
    · rename_i hlt
      exact ih hlt
    · exact h

/-- Integers that fit in 64 bits are finite as doubles. -/
theorem isFinite_whole {n : Int} (h : n.natAbs < UInt64.size) : Binary.isFinite (Number.whole n).toFloat := by
  rw [Number.toFloat]
  split
  · exact Binary.isFinite_neg (Binary.isFinite_ofNat h)
  · exact Binary.isFinite_ofNat h

/-- Whatever is written, a number is finite. -/
theorem Numeral.isFinite_of_value {numeral : Numeral} {n : Number} (h : numeral.value? = some n) :
    Binary.isFinite n.toFloat := by
  have hwhole : (significand 0 numeral.whole).1 < UInt64.size := significand_lt (by decide) _
  rw [Numeral.value?] at h
  dsimp only at h
  split at h
  · obtain rfl := Option.some.inj h
    exact isFinite_whole hwhole
  · split at h
    · obtain rfl := Option.some.inj h
      exact isFinite_whole (by rwa [Int.natAbs_neg])
    · obtain ⟨x, hx, rfl⟩ := Option.map_eq_some_iff.mp h
      have hfinite := Decimal.isFinite_of_scaled (significand_lt hwhole _) hx
      rw [Number.toFloat]
      split
      · exact Binary.isFinite_neg hfinite
      · exact hfinite

theorem gives_readNumber (s : Glyphs) : Gives (readNumber s) fun x => Binary.isFinite x.1.toFloat := by
  refine Gives.skip fun (numeral, s) => ?_
  dsimp only
  split
  · rename_i n hn
    exact Gives.of_ok (Numeral.isFinite_of_value hn)
  · exact Gives.of_error _

/-! ## Trees -/

/-- All numbers inside are finite. -/
inductive Finite : Json → Prop
  | null : Finite .null
  | bool (b : Bool) : Finite (.bool b)
  | number {n : Number} (h : Binary.isFinite n.toFloat) : Finite (.number n)
  | string (s : String) : Finite (.string s)
  | array {items : List Json} (h : ∀ item ∈ items, Finite item) : Finite (.array items)
  | object {members : List (String × Json)} (h : ∀ m ∈ members, Finite m.2) : Finite (.object members)

section Containers

variable {α : Type} {p : α → Prop} {read : Glyphs → Except Fault (α × Glyphs)}
  (h : ∀ s, Gives (read s) fun x => p x.1)
include h

theorem gives_readItemsFrom (fuel : Nat) (first : Bool) (s : Glyphs) :
    Gives (readItemsFrom read fuel first s) fun x => ∀ a ∈ x.1, p a := by
  induction fuel generalizing first s with
  | zero => exact Gives.of_error _
  | succ fuel ih =>
    refine Gives.skip fun next => ?_
    cases next with
    | done s => exact Gives.of_ok (List.forall_mem_nil p)
    | more s =>
      refine Gives.bind (h s) fun (a, s) ha => Gives.bind (ih false s) fun (items, s) hitems => ?_
      exact Gives.of_ok (List.forall_mem_cons.mpr ⟨ha, hitems⟩)

theorem gives_readItems (s : Glyphs) : Gives (readItems read s) fun x => ∀ a ∈ x.1, p a :=
  gives_readItemsFrom h _ true s

theorem gives_readMembersFrom (fuel : Nat) (first : Bool) (s : Glyphs) :
    Gives (readMembersFrom read fuel first s) fun x => ∀ m ∈ x.1, p m.2 := by
  induction fuel generalizing first s with
  | zero => exact Gives.of_error _
  | succ fuel ih =>
    refine Gives.skip fun next => ?_
    cases next with
    | done s => exact Gives.of_ok (List.forall_mem_nil _)
    | more s =>
      refine Gives.skip fun (key, s) => Gives.skip fun s => ?_
      refine Gives.bind (h s) fun (a, s) ha => Gives.bind (ih false s) fun (members, s) hmembers => ?_
      exact Gives.of_ok (List.forall_mem_cons.mpr ⟨ha, hmembers⟩)

theorem gives_readMembers (s : Glyphs) : Gives (readMembers read s) fun x => ∀ m ∈ x.1, p m.2 :=
  gives_readMembersFrom h _ true s

end Containers

/-- A tree is as deep as what is nested in it allows. -/
theorem gives_readWith {nested : Option (Glyphs → Except Fault (Json × Glyphs))} {budget : Nat}
    (h : ∀ read ∈ nested, 0 < budget ∧ ∀ s, Gives (read s) fun x => x.1.depth < budget ∧ x.1.Finite)
    (s : Glyphs) : Gives (readWith nested s) fun x => x.1.depth ≤ budget ∧ x.1.Finite := by
  rw [readWith]
  split
  · exact Gives.of_error _
  · exact Gives.map fun _ _ => ⟨Nat.zero_le _, .null⟩
  · exact Gives.map fun _ _ => ⟨Nat.zero_le _, .bool true⟩
  · exact Gives.map fun _ _ => ⟨Nat.zero_le _, .bool false⟩
  · exact Gives.map fun _ _ => ⟨Nat.zero_le _, .string _⟩
  · split
    · exact Gives.of_error _
    · rename_i read
      obtain ⟨hpos, hread⟩ := h read rfl
      refine Gives.bind (gives_readItems (p := fun json => json.depth < budget ∧ json.Finite) hread _) ?_
      rintro ⟨items, s⟩ hitems
      refine Gives.skip fun s => Gives.of_ok ?_
      rw [forall₂_and] at hitems
      refine ⟨?_, .array hitems.2⟩
      rw [depth, Nat.add_one_le_iff, Nat.lt_iff_le_pred hpos, depthItems_le_iff]
      exact fun item hm => Nat.le_pred_of_lt (hitems.1 item hm)
  · split
    · exact Gives.of_error _
    · rename_i read
      obtain ⟨hpos, hread⟩ := h read rfl
      refine Gives.bind (gives_readMembers (p := fun json => json.depth < budget ∧ json.Finite) hread _) ?_
      rintro ⟨members, s⟩ hmembers
      refine Gives.skip fun s => Gives.of_ok ?_
      rw [forall₂_and] at hmembers
      refine ⟨?_, .object hmembers.2⟩
      rw [depth, Nat.add_one_le_iff, Nat.lt_iff_le_pred hpos, depthMembers_le_iff]
      exact fun m hm => Nat.le_pred_of_lt (hmembers.1 m hm)
  · split
    · exact Gives.map ((gives_readNumber _).imp fun _ hn => ⟨Nat.zero_le _, .number hn⟩)
    · exact Gives.of_error _

/-- A tree that is read fits into the budget, and all its numbers are finite. -/
theorem gives_read (budget : Nat) (s : Glyphs) :
    Gives (Json.read budget s) fun x => x.1.depth ≤ budget ∧ x.1.Finite := by
  induction budget generalizing s with
  | zero => exact gives_readWith (by rintro _ ⟨⟩) s
  | succ budget ih =>
    refine gives_readWith ?_ s
    rintro _ ⟨⟩
    exact ⟨Nat.zero_lt_succ budget, fun s => (ih s).imp fun _ h => ⟨Nat.lt_succ_of_le h.1, h.2⟩⟩

end Json

open Json

/-! ## Codecs -/

namespace Codec

variable {α β : Type} {c : Codec α} {budget : Nat} {p q : α → Prop}

/-- All trees that a value may be written as fit into the budget. -/
def Shallow (c : Codec α) (budget : Nat) (a : α) : Prop := ∀ tree, c.Writes a tree → tree.depth ≤ budget

/-- What is read within the budget has trees that fit into it, and satisfies `p`. -/
def Yields (c : Codec α) (budget : Nat) (p : α → Prop) : Prop :=
  ∀ s, Gives (c.read budget s) fun x => c.Shallow budget x.1 ∧ p x.1

theorem shallow_list {items : List α} (h : ∀ a ∈ items, c.Shallow budget a) :
    (list c).Shallow (budget + 1) items := by
  rintro _ ⟨written, rfl, hwritten, rfl⟩
  rw [List.forall_mem_map] at h
  rw [depth, Nat.add_le_add_iff_right, depthItems_le_iff, List.forall_mem_map]
  exact fun x hx => h x hx x.2 (hwritten x hx)

theorem shallow_dict {d : Dict α} (h : ∀ m ∈ d.entries, c.Shallow budget m.2) :
    (dict c).Shallow (budget + 1) d := by
  rintro _ ⟨members, hperm, hmembers, rfl⟩
  rw [forall_mem_entries_iff (p := c.Shallow budget) hperm] at h
  rw [depth, Nat.add_le_add_iff_right, depthMembers_le_iff, List.forall_mem_map]
  exact fun m hm => h m hm m.2.2 (hmembers m hm)

theorem Yields.imp (h : c.Yields budget p) (hpq : ∀ a, p a → q a) : c.Yields budget q :=
  fun s => (h s).imp fun x hx => ⟨hx.1, hpq x.1 hx.2⟩

/-- What is no container fits into any budget. -/
theorem shallow_of_depth {a : α} (h : ∀ tree, c.Writes a tree → tree.depth = 0) : c.Shallow budget a :=
  fun tree htree => (h tree htree).trans_le (Nat.zero_le budget)

theorem yields_of_depth (hdepth : ∀ a tree, c.Writes a tree → tree.depth = 0) :
    c.Yields budget fun _ => True :=
  fun _ x _ => ⟨shallow_of_depth (hdepth x.1), trivial⟩

/-- A scalar is taken from a tree whose numbers are finite. -/
theorem yields_scalar {expected : String} {take : Json → Except Fault α} {starts : Glyph → Bool}
    {toTree : α → Json} (hdepth : ∀ a, (toTree a).depth = 0)
    (htake : ∀ json, json.Finite → Gives (take json) p) :
    (scalar expected take starts toTree).Yields budget p := by
  intro s
  refine Gives.imp (p := fun x => p x.1) ?_ fun x hx => ⟨shallow_of_depth ?_, hx⟩
  case refine_2 =>
    rintro _ rfl
    exact hdepth x.1
  simp only [scalar]
  split
  · exact Gives.of_error _
  · split
    · refine Gives.bind (gives_read 0 _) ?_
      rintro ⟨json, s⟩ hjson
      exact Gives.bind (htake json hjson.2) fun a ha => Gives.of_ok ha
    · exact Gives.of_error _

theorem yields_formatted {expected : String} {parse : String → Except String α} {print : α → String}
    (h : ∀ s, Gives (parse s) p) : (formatted expected parse print).Yields budget p := by
  refine yields_scalar (fun _ => rfl) fun json _ => ?_
  cases json with
  | string s => exact Gives.mapError (h s)
  | _ => exact Gives.of_error _

theorem yields_text : text.Yields budget fun _ => True := by
  refine yields_of_depth ?_
  rintro _ _ rfl
  rfl

/-- Doubles are finite when they are read. -/
theorem yields_real : real.Yields budget fun x => Binary.isFinite x := by
  unfold real number
  refine yields_scalar (fun x => ?_) fun json hjson => ?_
  · rw [Json.ofFloat]
    split <;> rfl
  · cases hjson with
    | number h => exact Gives.of_ok h
    | _ => exact Gives.of_error _

theorem Yields.optional (h : c.Yields budget p) : (optional c).Yields budget fun o => ∀ a ∈ o, p a := by
  intro s
  simp only [Codec.optional]
  split
  · refine Gives.map fun _ _ => ⟨shallow_of_depth ?_, fun a ha => absurd ha (Option.not_mem_none a)⟩
    rintro _ rfl
    rfl
  · refine Gives.map ((h _).imp fun x hx => ⟨hx.1, ?_⟩)
    rintro _ ⟨⟩
    exact hx.2

theorem gives_list (h : ∀ inner, budget = inner + 1 → ∀ s, Gives (c.read inner s) fun x => p x.1)
    (s : Glyphs) : Gives ((list c).read budget s) fun x => 0 < budget ∧ ∀ a ∈ x.1, p a := by
  simp only [list]
  split
  · exact Gives.of_error _
  · split
    · exact Gives.of_error _
    · rename_i inner
      refine Gives.bind (gives_readItems (h inner rfl) _) ?_
      rintro ⟨items, s⟩ hitems
      exact Gives.skip fun s => Gives.of_ok ⟨Nat.zero_lt_succ inner, hitems⟩
  · exact Gives.of_error _

theorem gives_dict (h : ∀ inner, budget = inner + 1 → ∀ s, Gives (c.read inner s) fun x => p x.1)
    (s : Glyphs) : Gives ((dict c).read budget s) fun x => 0 < budget ∧ ∀ m ∈ x.1.entries, p m.2 := by
  simp only [dict]
  split
  · exact Gives.of_error _
  · split
    · exact Gives.of_error _
    · rename_i inner
      refine Gives.bind (gives_readMembers (h inner rfl) _) ?_
      rintro ⟨members, s⟩ hmembers
      refine Gives.skip fun s => Gives.of_ok ⟨Nat.zero_lt_succ inner, fun m hm => ?_⟩
      exact hmembers m (Entries.mem_of_mem_normalize hm)
  · exact Gives.of_error _

/-- The items of a sequence have what is left of the budget. -/
theorem yields_list (h : c.Yields (budget - 1) p) : (list c).Yields budget fun items => ∀ a ∈ items, p a := by
  intro s
  refine (gives_list (p := fun a => c.Shallow (budget - 1) a ∧ p a) ?_ s).imp ?_
  · rintro inner rfl
    exact h
  · rintro ⟨items, s⟩ ⟨hpos, hitems⟩
    rw [forall₂_and] at hitems
    rw [← Nat.sub_add_cancel hpos]
    exact ⟨shallow_list hitems.1, hitems.2⟩

/-- The values of a dictionary have what is left of the budget. -/
theorem yields_dict (h : c.Yields (budget - 1) p) : (dict c).Yields budget fun d => ∀ m ∈ d.entries, p m.2 := by
  intro s
  refine (gives_dict (p := fun a => c.Shallow (budget - 1) a ∧ p a) ?_ s).imp ?_
  · rintro inner rfl
    exact h
  · rintro ⟨d, s⟩ ⟨hpos, hmembers⟩
    rw [forall₂_and] at hmembers
    rw [← Nat.sub_add_cancel hpos]
    exact ⟨shallow_dict hmembers.1, hmembers.2⟩

end Codec

/-! ## Records -/

namespace Fields

variable {τ σ : Type} {budget : Nat}

/-- Each field yields values that fit into the budget, and what stands for a field that is left out fits as
well: `p` holds of the values of all fields, and `q` of slots that hold some of them. -/
inductive Yields (budget : Nat) : {τ σ : Type} → Fields τ σ → (τ → Prop) → (σ → Prop) → Prop
  | nil : Yields budget .nil (fun _ => True) (fun _ => True)
  | cons {α τ σ : Type} {field : Field α} {rest : Fields τ σ} {p : α → Prop} {ps : τ → Prop} {qs : σ → Prop}
    (h : field.codec.Yields budget p)
    (hfallback : ∀ a ∈ field.fallback.or field.codec.absent, field.codec.Shallow budget a ∧ p a)
    (hrest : rest.Yields budget ps qs) :
    Yields budget (.cons field rest)
      (fun values => (field.codec.Shallow budget values.1 ∧ p values.1) ∧ ps values.2)
      (fun slots => (∀ a ∈ slots.1, field.codec.Shallow budget a ∧ p a) ∧ qs slots.2)

variable {fields : Fields τ σ} {p : τ → Prop} {q : σ → Prop}

theorem Yields.vacant (h : fields.Yields budget p q) : q fields.vacant := by
  induction h with
  | nil => trivial
  | cons _ _ _ ih => exact ⟨nofun, ih⟩

/-- One more slot is filled. -/
theorem Yields.fill (h : fields.Yields budget p q) {slots : σ} (hslots : q slots) (key : String) (s : Glyphs) :
    ∀ filled ∈ fields.fill key (fun codec => readColon s >>= codec.read budget) slots,
      Gives filled fun x => q x.1 := by
  induction h with
  | nil => nofun
  | cons hfield hfallback hrest ih =>
    obtain ⟨slot, slots⟩ := slots
    intro filled hfilled
    rw [Fields.fill] at hfilled
    split at hfilled
    · obtain rfl := Option.some.inj hfilled
      split
      · exact Gives.of_error _
      · refine Gives.map (Gives.skip fun s => (hfield s).imp fun x hx => ⟨?_, hslots.2⟩)
        rintro _ ⟨⟩
        exact hx
    · obtain ⟨inner, hinner, rfl⟩ := Option.map_eq_some_iff.mp hfilled
      exact Gives.map ((ih hslots.2 inner hinner).imp fun x hx => ⟨hslots.1, hx⟩)

theorem Yields.readMembersFrom (h : fields.Yields budget p q) (fuel : Nat) (first : Bool) {slots : σ}
    (hslots : q slots) (s : Glyphs) :
    Gives (fields.readMembersFrom budget fuel first slots s) fun x => q x.1 := by
  induction fuel generalizing first slots s with
  | zero => exact Gives.of_error _
  | succ fuel ih =>
    refine Gives.skip fun next => ?_
    cases next with
    | done s => exact Gives.of_ok hslots
    | more s =>
      refine Gives.skip fun (key, s) => ?_
      have hfill := h.fill hslots key s
      dsimp only
      split
      · rename_i filled hfilled
        exact Gives.bind (hfill filled hfilled) fun x hx => ih false hx x.2
      · exact Gives.skip fun s => Gives.skip fun s => ih false hslots s

/-- Fields that were left out get what stands for them. -/
theorem Yields.complete (h : fields.Yields budget p q) {slots : σ} (hslots : q slots) :
    Gives (fields.complete slots) p := by
  induction h with
  | nil => exact Gives.of_ok trivial
  | cons hfield hfallback hrest ih =>
    obtain ⟨slot, slots⟩ := slots
    rw [Fields.complete]
    split
    · rename_i a ha
      refine Gives.map ((ih hslots.2).imp fun values hvalues => ⟨?_, hvalues⟩)
      rcases Option.or_eq_some_iff.mp ha with hslot | ⟨-, hdefault⟩
      · exact hslots.1 a hslot
      · exact hfallback a hdefault
    · exact Gives.of_error _

theorem Yields.readItems (h : fields.Yields budget p q) (expected : String) (index : Nat) (s : Glyphs) :
    Gives (fields.readItems expected budget index s) fun x => p x.1 := by
  induction h generalizing index s with
  | nil => exact Gives.of_ok trivial
  | cons hfield hfallback hrest ih =>
    rename_i field rest p ps qs
    rw [Fields.readItems]
    refine Gives.skip fun next => ?_
    cases next with
    | more s =>
      refine Gives.bind (hfield s) fun (a, s) ha => ?_
      exact Gives.bind (ih (index + 1) s) fun (values, s) hvalues => Gives.of_ok ⟨ha, hvalues⟩
    | done s =>
      dsimp only
      split
      · exact Gives.of_error _
      · rename_i a ha
        have hdefault : a ∈ field.fallback.or field.codec.absent := by
          rw [ha]
          rfl
        refine Gives.bind (ih (index + 1) _) fun (values, s) hvalues => Gives.of_ok ?_
        exact ⟨hfallback a hdefault, hvalues⟩

theorem Yields.depth_le (h : fields.Yields budget p q) {values : τ} (hvalues : p values)
    {members : List (String × Json)} (hmembers : fields.Writes values members) :
    depthMembers members ≤ budget := by
  induction h generalizing members with
  | nil =>
    obtain rfl := hmembers
    exact Nat.zero_le budget
  | cons hfield hfallback hrest ih =>
    obtain ⟨tree, others, htree, hothers, rfl⟩ := hmembers
    exact Nat.max_le.mpr ⟨hvalues.1.1 tree htree, ih hvalues.2 hothers⟩

end Fields

/-- The fields of a record have what is left of the budget. -/
theorem Codec.yields_record {α τ σ : Type} {name : String} {fields : Fields τ σ} {build : τ → α}
    {parts : α → τ} {budget : Nat} {p : τ → Prop} {q : σ → Prop} (h : fields.Yields budget p q)
    (hparts : ∀ values, parts (build values) = values) :
    (record name fields build parts).Yields (budget + 1) fun a => p (parts a) := by
  have hbuild (values : τ) (hvalues : p values) :
      (record name fields build parts).Shallow (budget + 1) (build values) ∧ p (parts (build values)) := by
    rw [hparts]
    refine ⟨?_, hvalues⟩
    rintro _ ⟨members, hmembers, rfl⟩
    rw [hparts] at hmembers
    exact Nat.succ_le_succ (h.depth_le hvalues hmembers)
  intro s
  simp only [record]
  split
  · exact Gives.of_error _
  · refine Gives.bind (h.readMembersFrom _ true h.vacant _) ?_
    rintro ⟨slots, s⟩ hslots
    refine Gives.bind (h.complete hslots) fun values hvalues => ?_
    exact Gives.skip fun s => Gives.of_ok (hbuild values hvalues)
  · refine Gives.bind (h.readItems _ 0 _) ?_
    rintro ⟨values, s⟩ hvalues
    exact Gives.skip fun s => Gives.of_ok (hbuild values hvalues)
  · exact Gives.of_error _

end FlowEngine
