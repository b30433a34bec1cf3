import FlowEngine.Codec.Record
import FlowEngine.Proofs.Wire.Written

/-!
# Faithful codecs

A codec is faithful on a value if documents that start with a tree of the value are read back as that
value, in whatever order the members of its dictionaries were written. This has two limits, and both are
part of the notion: what has no form in JSON cannot be read back, and what nests more deeply than the
budget allows is refused. `Codec.Faithful c a p` says that nothing else stands in the way: reading gives
`a` if `p` holds and the tree is shallow enough, and fails otherwise.

Codecs are built from parts, and so are the proofs that they are faithful. For the fields of a record
the invariant is about slots: those of the fields that were read are filled, and the others are not.

## Main definitions

* `Codec.Faithful`, `Fields.Faithful`: codecs and fields of records that are read back.

## Main results

* `Codec.faithful_text`, `Codec.faithful_real`, `Codec.faithful_uint32` and so on: scalars.
* `Codec.Faithful.optional`, `Codec.faithful_list`, `Codec.faithful_dict`: containers.
* `Codec.faithful_choice`, `Codec.faithful_record`: enumerations and records.
* `Codec.Faithful.parse_renders`: whole documents.
-/

namespace FlowEngine

open Json

namespace Codec

variable {α β : Type}

/-- Reading a document that starts with a tree of `a` gives `a` if `p` holds and the tree does not
nest too deeply, and fails otherwise. -/
def Faithful (c : Codec α) (a : α) (p : Prop) : Prop :=
  ∀ tree, c.Writes a tree → ∀ budget, ReadsBack (c.read budget) tree (p ∧ tree.depth ≤ budget) a

variable {c : Codec α} {a : α} {p q : Prop}

theorem Faithful.congr (h : c.Faithful a p) (hpq : p ↔ q) : c.Faithful a q :=
  fun tree htree budget => (h tree htree budget).congr (and_congr_left fun _ => hpq)

/-- A document of a value is read back, if it may nest as deeply as the tree does. -/
theorem Faithful.parse_renders (h : c.Faithful a p) (layout : Layout) {tree : Json}
    (htree : c.Writes a tree) :
    OkIff (c.parse (Glyphs.ofBytes (tree.render layout).toUTF8)) (p ∧ tree.depth ≤ depthLimit) a := by
  have hdocument : Glyphs.ofBytes (tree.render layout).toUTF8 = written layout 0 tree [] := by
    rw [Glyphs.ofBytes_toUTF8, Json.render, Glyphs.ofString, String.toList_ofList, written,
      List.append_nil]
  rw [hdocument]
  exact (h tree htree depthLimit layout 0 [] _ trivial (skipBlanks_written layout 0 _)).bind_ok rfl

/-- A codec for another type. -/
theorem Faithful.imap {f : α → β} {g : β → α} {b : β} (h : c.Faithful (g b) p) (hfg : f (g b) = b) :
    (c.imap f g).Faithful b p := by
  intro tree htree budget layout level rest s hrest hs
  have hmap := (h tree htree budget layout level rest s hrest hs).map fun x => (f x.1, x.2)
  rw [hfg] at hmap
  exact hmap

/-! ## Scalars -/

/-- A scalar that is written as a tree which can be read as `json`. -/
theorem faithful_scalar {expected : String} {take : Json → Except Fault α} {starts : Glyph → Bool}
    {toTree : α → Json} (json : Json) (htree : (toTree a).depth = 0)
    (hread : ∀ layout level rest, Ended rest →
      readWith none (written layout level (toTree a) rest) = .ok (json, rest))
    (hstarts : ∀ layout level, ∃ c cs, print layout level (toTree a) = c :: cs ∧ starts (some c))
    (htake : take json = .ok a) : (scalar expected take starts toTree).Faithful a True := by
  rintro _ rfl budget layout level rest s hrest hs
  refine (OkIff.of_ok ?_).congr (by simp [htree])
  obtain ⟨c, cs, hcs, hc⟩ := hstarts layout level
  have hwritten : written layout level (toTree a) rest = some c :: (cs.map some ++ rest) := by
    rw [written, hcs, List.map_cons, List.cons_append]
  have hread := hread layout level rest hrest
  rw [hwritten] at hread
  simp only [scalar, hs.trans hwritten]
  rw [if_pos hc, hread]
  change (take json >>= _) = _
  rw [htake]
  rfl

/-- Texts in a format of their own. -/
theorem faithful_formatted {expected : String} {parse : String → Except String α} {print : α → String}
    (h : parse (print a) = .ok a) : (formatted expected parse print).Faithful a True := by
  refine faithful_scalar (.string (print a)) rfl (fun layout level rest _ => readWith_written_string none layout level _ rest)
    (fun _ _ => ⟨'"', _, rfl, rfl⟩) ?_
  change (parse (print a)).mapError _ = _
  rw [h]
  rfl

theorem faithful_text (a : String) : text.Faithful a True :=
  faithful_formatted rfl

/-- Numbers whose text is read as a number. -/
theorem faithful_number {expected : String} {ofNumber : Number → Except Fault α} {toTree : α → Json}
    {n m : Number} (htree : toTree a = .number n) (hn : n.ReadsAs m) (hm : ofNumber m = .ok a) :
    (number expected ofNumber toTree).Faithful a True := by
  refine faithful_scalar (.number m) (by rw [htree, depth]) (fun layout level rest hrest => ?_)
    (fun _ _ => ?_) hm
  · rw [htree]
    exact readWith_written_number hn none layout level hrest
  · rw [htree]
    exact hn.exists_start

theorem faithful_flag (b : Bool) : flag.Faithful b True := by
  cases b with
  | false => exact faithful_scalar (.bool false) rfl (fun _ _ _ _ => rfl) (fun _ _ => ⟨'f', _, rfl, rfl⟩) rfl
  | true => exact faithful_scalar (.bool true) rfl (fun _ _ _ _ => rfl) (fun _ _ => ⟨'t', _, rfl, rfl⟩) rfl

theorem faithful_whole (name : String) (least greatest : Int) {n : Nat} (hn : n < UInt64.size)
    (hleast : least ≤ n) (hgreatest : (n : Int) ≤ greatest) :
    (whole name least greatest).Faithful n True :=
  faithful_number rfl (readsAs_natural hn) (if_pos ⟨hleast, hgreatest⟩)

theorem faithful_uint8 (a : UInt8) : uint8.Faithful a True := by
  have hlt : a.toNat < 256 := a.toNat_lt
  have hwhole := faithful_whole "u8" 0 255 (Nat.lt_trans hlt (by decide)) (by omega) (by omega)
  exact Faithful.imap (b := a) hwhole UInt8.ofNat_toNat

theorem faithful_uint32 (a : UInt32) : uint32.Faithful a True := by
  have hlt : a.toNat < 4294967296 := a.toNat_lt
  have hgreatest : ((UInt32.size - 1 : Nat) : Int) = 4294967295 := rfl
  have hwhole := faithful_whole "u32" 0 (UInt32.size - 1 : Nat) (Nat.lt_trans hlt (by decide))
    (by omega) (by omega)
  exact Faithful.imap (b := a) hwhole UInt32.ofNat_toNat

/-- The text of a double is read as the same double. -/
def RealReadsBack (x : Float) : Prop := ∃ m, (Number.real x).ReadsAs m ∧ m.toFloat = x

/-- What is read is a double again, and never an integer with this value. -/
theorem RealReadsBack.readsAs_real {x : Float} (h : RealReadsBack x) : (Number.real x).ReadsAs (.real x) := by
  obtain ⟨m, hm, hvalue⟩ := h
  cases m with
  | whole n => exact absurd hm (readNumber_real_ne_whole x n)
  | real y =>
    obtain rfl : y = x := hvalue
    exact hm

/-- A finite double is read back if its text is, and others have no form in JSON. -/
theorem faithful_real {x : Float} (h : Binary.isFinite x → RealReadsBack x) :
    real.Faithful x (Binary.isFinite x) := by
  by_cases hx : Binary.isFinite x
  · obtain ⟨m, hm, hvalue⟩ := h hx
    have htree : Json.ofFloat x = .number (.real x) := if_pos hx
    refine (faithful_number htree hm ?_).congr (by simp [hx])
    rw [hvalue]
  · rintro _ rfl budget layout level rest s _ hs
    have htree : Json.ofFloat x = .null := if_neg hx
    rw [htree] at hs
    have hread : real.read budget s = .error (wrongTypeAt "f64" (written layout level .null rest)) := by
      simp only [real, number, scalar, hs]
      rfl
    exact .of_error hread fun h => hx h.1

/-! ## Containers -/

theorem readsBack_list_zero (items : List Json) (a : List α) :
    ReadsBack ((list c).read 0) (.array items) False a := by
  intro layout level rest s _ hs
  rw [written_array] at hs
  have hread : (list c).read 0 s = .error (.text .tooDeep) := by
    simp only [list, hs]
  exact .of_error hread id

theorem readsBack_list_succ {budget : Nat} {items : List (α × Json)} {p : α × Json → Prop}
    (h : ∀ x ∈ items, ReadsBack (c.read budget) x.2 (p x) x.1) :
    ReadsBack ((list c).read (budget + 1)) (.array (items.map (·.2))) (∀ x ∈ items, p x)
      (items.map (·.1)) := by
  intro layout level rest s _ hs
  rw [written_array] at hs
  simp only [list, hs]
  exact (readItems_written layout (level + 1) level _ h).bind_ok rfl

/-- A sequence is read back if its items are. -/
theorem faithful_list {items : List α} {p : α → Prop} (h : ∀ a ∈ items, c.Faithful a (p a)) :
    (list c).Faithful items (∀ a ∈ items, p a) := by
  rintro _ ⟨written, rfl, hwritten, rfl⟩ budget
  rw [List.forall_mem_map] at h
  cases budget with
  | zero => exact (readsBack_list_zero _ _).congr (iff_of_false id fun h => Nat.not_succ_le_zero _ h.2)
  | succ budget =>
    refine (readsBack_list_succ fun x hx => h x hx x.2 (hwritten x hx) budget).congr ?_
    rw [forall₂_and, List.forall_mem_map, depth, Nat.add_le_add_iff_right, depthItems_le_iff,
      List.forall_mem_map]

theorem readsBack_dict_zero (members : List (String × Json)) (d : Dict α) :
    ReadsBack ((dict c).read 0) (.object members) False d := by
  intro layout level rest s _ hs
  rw [written_object] at hs
  have hread : (dict c).read 0 s = .error (.text .tooDeep) := by
    simp only [dict, hs]
  exact .of_error hread id

/-- Members are read back in any order. -/
theorem readsBack_dict_succ {budget : Nat} {d : Dict α} {members : List (String × α × Json)}
    {p : String × α × Json → Prop} (hperm : (members.map fun m => (m.1, m.2.1)).Perm d.entries)
    (h : ∀ m ∈ members, ReadsBack (c.read budget) m.2.2 (p m) m.2.1) :
    ReadsBack ((dict c).read (budget + 1)) (.object (members.map fun m => (m.1, m.2.2)))
      (∀ m ∈ members, p m) d := by
  intro layout level rest s _ hs
  rw [written_object] at hs
  simp only [dict, hs]
  refine (readMembers_written layout (level + 1) level _ h).bind_ok ?_
  change Except.ok (Dict.ofList (members.map fun m => (m.1, m.2.1)), rest) = _
  rw [Dict.ofList_of_perm hperm]

/-- What holds of all entries does not depend on their order. -/
theorem forall_mem_entries_iff {d : Dict α} {members : List (String × α × Json)} {p : α → Prop}
    (hperm : (members.map fun m => (m.1, m.2.1)).Perm d.entries) :
    (∀ e ∈ d.entries, p e.2) ↔ ∀ m ∈ members, p m.2.1 := by
  rw [← List.forall_mem_map (f := fun m : String × α × Json => (m.1, m.2.1)) (P := fun e => p e.2)]
  exact forall_congr' fun e => imp_congr_left hperm.symm.mem_iff

/-- A dictionary is read back if its values are. -/
theorem faithful_dict {d : Dict α} {p : α → Prop} (h : ∀ e ∈ d.entries, c.Faithful e.2 (p e.2)) :
    (dict c).Faithful d (∀ e ∈ d.entries, p e.2) := by
  rintro _ ⟨members, hperm, hmembers, rfl⟩ budget
  rw [forall_mem_entries_iff (p := fun a => c.Faithful a (p a)) hperm] at h
  cases budget with
  | zero => exact (readsBack_dict_zero _ _).congr (iff_of_false id fun h => Nat.not_succ_le_zero _ h.2)
  | succ budget =>
    refine (readsBack_dict_succ hperm fun m hm => h m hm m.2.2 (hmembers m hm) budget).congr ?_
    rw [forall₂_and, forall_mem_entries_iff hperm, depth, Nat.add_le_add_iff_right, depthMembers_le_iff,
      List.forall_mem_map]

theorem faithful_optional_none : (optional c).Faithful none True := by
  rintro _ rfl budget layout level rest s hrest hs
  refine (OkIff.of_ok ?_).congr (by simp [depth])
  simp only [optional]
  rw [hs]
  rfl

/-- A value that may be missing is read back if it is, and does not look like null. -/
theorem Faithful.optional (h : c.Faithful a p)
    (hstart : ∀ tree, c.Writes a tree →
      ∀ layout level, ∃ g cs, print layout level tree = g :: cs ∧ g ≠ 'n') :
    (optional c).Faithful (some a) p := by
  intro tree htree budget layout level rest s hrest hs
  obtain ⟨g, cs, hcs, hg⟩ := hstart tree htree layout level
  have hread := (h tree htree budget layout level rest _ hrest (skipBlanks_written layout level _)).map
    fun x => (some x.1, x.2)
  have hwritten : written layout level tree rest = some g :: (cs.map some ++ rest) := by
    rw [written, hcs, List.map_cons, List.cons_append]
  simp only [Codec.optional]
  rw [hs]
  split
  · rename_i heq
    rw [hwritten] at heq
    exact absurd (Option.some.inj (List.cons.inj heq).1) hg
  · exact hread

theorem faithful_optional_text (a : Option String) : (Codec.optional text).Faithful a True := by
  cases a with
  | none => exact faithful_optional_none
  | some a =>
    refine (faithful_text a).optional ?_
    rintro _ rfl layout level
    exact ⟨'"', _, rfl, by decide⟩

/-! ## Enumerations -/

/-- Names are read back if they differ. -/
theorem faithful_choice {variants : List (String × α)} {name : α → String}
    (h : variants.lookup (name a) = some a) : (choice variants name).Faithful a True := by
  rintro _ rfl budget layout level rest s hrest hs
  refine (OkIff.of_ok ?_).congr (by simp [depth])
  have hvariant : variant? variants (name a) = .ok a := by rw [variant?, h]
  have hs : skipBlanks s = some '"' :: writtenText (name a) rest :=
    hs.trans (written_string layout level (name a))
  change readChoice variants budget s = _
  rw [readChoice, hs]
  change (readString (writtenText (name a) rest) >>= _) = _
  rw [readString_writtenText]
  change (variant? variants (name a) >>= _) = _
  rw [hvariant]
  rfl

end Codec

/-! ## Records -/

namespace Fields

variable {τ σ τ' σ' : Type}

/-- The names of the fields. -/
def names : {τ σ : Type} → Fields τ σ → List String
  | _, _, .nil => []
  | _, _, .cons field rest => field.name :: rest.names

/-- Slots with the values of all fields. -/
def filled : {τ σ : Type} → Fields τ σ → τ → σ
  | _, _, .nil, _ => ()
  | _, _, .cons _ rest, (a, values) => (some a, rest.filled values)

theorem length_of_writes {fields : Fields τ σ} {values : τ} {members : List (String × Json)}
    (h : fields.Writes values members) : members.length = fields.count := by
  induction fields generalizing members with
  | nil =>
    obtain rfl := h
    rfl
  | cons field rest ih =>
    obtain ⟨tree, others, -, hothers, rfl⟩ := h
    rw [List.length_cons, ih hothers, count]

theorem complete_filled (fields : Fields τ σ) (values : τ) :
    fields.complete (fields.filled values) = .ok values := by
  induction fields with
  | nil => rfl
  | cons field rest ih =>
    obtain ⟨a, values⟩ := values
    rw [filled, complete, Option.some_or]
    change (rest.complete (rest.filled values)).map _ = _
    rw [ih]
    rfl

/-- Each field is faithful on its value. -/
inductive Faithful : {τ σ : Type} → Fields τ σ → τ → Prop → Prop
  | nil : Faithful .nil () True
  | cons {α τ σ : Type} {field : Field α} {rest : Fields τ σ} {a : α} {values : τ} {p q : Prop}
    (h : field.codec.Faithful a p) (hrest : rest.Faithful values q) :
    Faithful (.cons field rest) (a, values) (p ∧ q)

/-- The fields that are still to come have their slots among those of all fields. -/
def Within (rest : Fields τ' σ') (fields : Fields τ σ) (put : σ' → σ) : Prop :=
  ∀ key ∈ rest.names, ∀ {ρ : Type} (value : {α : Type} → Codec α → Except Fault (α × ρ)) (slots : σ'),
    fields.fill key value (put slots) =
      (rest.fill key value slots).map fun filled => filled.map fun x => (put x.1, x.2)

theorem within_self (fields : Fields τ σ) : fields.Within fields id := by
  intro key _ ρ value slots
  have hid : (fun filled : Except Fault (σ × ρ) => filled.map fun x => (id x.1, x.2)) = id := by
    funext filled
    cases filled <;> rfl
  rw [hid, Option.map_id]
  rfl

/-- The slot of the next field is filled, and the others remain. -/
theorem Within.tail {α : Type} {field : Field α} {rest : Fields τ' σ'} {fields : Fields τ σ}
    {put : Option α × σ' → σ} (h : (Fields.cons field rest).Within fields put)
    (hname : field.name ∉ rest.names) (a : α) :
    rest.Within fields fun slots => put (some a, slots) := by
  intro key hkey ρ value slots
  have hne : key ≠ field.name := fun heq => hname (heq ▸ hkey)
  rw [h key (List.mem_cons_of_mem _ hkey) value (some a, slots), fill, if_neg hne, Option.map_map]
  refine congrArg (fun f => (rest.fill key value slots).map f) ?_
  funext filled
  cases filled <;> rfl

section Read

variable {fields : Fields τ σ} {budget : Nat} (layout : Layout) (level : Nat)

/-- One more member of a field is read. -/
theorem readMembersFrom_fill {slots : σ} {fuel : Nat} {first : Bool} {s text after : Glyphs} {key : String}
    {filled : Except Fault (σ × Glyphs)} (hnext : nextKey first s = .ok (.more text))
    (hkey : readString text = .ok (key, after))
    (hfill : fields.fill key (fun codec => readColon after >>= codec.read budget) slots = some filled) :
    fields.readMembersFrom budget (fuel + 1) first slots s =
      filled >>= fun x => fields.readMembersFrom budget fuel false x.1 x.2 := by
  rw [readMembersFrom, hnext]
  change (readString text >>= _) = _
  rw [hkey]
  simp only [bind, Except.bind] at hfill ⊢
  rw [hfill]

theorem readMembersFrom_written {rest : Fields τ' σ'} {values : τ'} {p : Prop}
    (h : rest.Faithful values p) {members : List (String × Json)} (hmembers : rest.Writes values members)
    (hnames : rest.names.Nodup) {put : σ' → σ} (hput : rest.Within fields put) {fuel : Nat}
    (hfuel : rest.count < fuel) (first : Bool) {s r : Glyphs} (hended : Ended s)
    (hs : skipBlanks s = some '\x7d' :: r) :
    OkIff (fields.readMembersFrom budget fuel first (put rest.vacant)
        (writtenMembers layout level first members s))
      (p ∧ depthMembers members ≤ budget) (put (rest.filled values), some '\x7d' :: r) := by
  induction h generalizing members fuel first with
  | nil =>
    obtain rfl := hmembers
    obtain ⟨fuel, rfl⟩ := Nat.exists_eq_add_of_lt hfuel
    refine (OkIff.of_ok ?_).congr (by simp [depthMembers])
    rw [writtenMembers, readMembersFrom, nextKey_of_skipBlanks hs]
    rfl
  | cons hfield hrest ih =>
    rename_i α τ' σ' field rest a values p q
    obtain ⟨tree, others, htree, hothers, rfl⟩ := hmembers
    obtain ⟨fuel, rfl⟩ := Nat.exists_eq_add_of_lt hfuel
    obtain ⟨hname, hnames⟩ := List.nodup_cons.mp hnames
    have hfuel : rest.count < (Fields.cons field rest).count + fuel := by
      rw [count]
      omega
    let after := writtenMembers layout level false others s
    let text := layout.colon.map some ++ written layout level tree after
    have hvalue := hfield tree htree budget layout level after _
      (ended_writtenMembers layout level others hended) (skipBlanks_colon layout level tree)
    have hfill : fields.fill field.name (fun codec => readColon text >>= codec.read budget)
        (put (none, rest.vacant)) =
          some ((readColon text >>= field.codec.read budget).map
            fun x => (put (some x.1, rest.vacant), x.2)) := by
      rw [hput field.name List.mem_cons_self, fill, if_pos rfl]
      cases readColon text >>= field.codec.read budget <;> rfl
    have hmembers := ih hothers hnames (hput.tail hname a) hfuel false
    rw [writtenMembers, vacant, readMembersFrom_fill (nextKey_lead layout level first _)
      (readString_writtenText field.name text) hfill, readColon_colon]
    refine OkIff.congr (OkIff.bind (hvalue.map fun x => (put (some x.1, rest.vacant), x.2))
      fun _ => hmembers) ?_
    rw [depthMembers, Nat.max_le]
    exact and_and_and_comm

/-- All fields of a record are read back. -/
theorem readMembers_written (outer : Nat) (empty : Bool) (r : Glyphs) {values : τ} {p : Prop}
    (h : fields.Faithful values p) {members : List (String × Json)} (hmembers : fields.Writes values members)
    (hnames : fields.names.Nodup) :
    let s := writtenMembers layout level true members (closing layout outer empty '\x7d' r)
    OkIff (fields.readMembersFrom budget (s.length + 1) true fields.vacant s)
      (p ∧ depthMembers members ≤ budget) (fields.filled values, some '\x7d' :: r) := by
  refine readMembersFrom_written layout level h hmembers hnames fields.within_self ?_ true
    (ended_closing layout outer empty (by simp)) (skipBlanks_closing layout outer empty rfl)
  have := length_le_writtenMembers layout level true members (closing layout outer empty '\x7d' r)
  rw [length_of_writes hmembers] at this
  omega

end Read

end Fields

namespace Codec

/-- A record is read back if its fields are, and have different names. -/
theorem faithful_record {α τ σ : Type} {name : String} {fields : Fields τ σ} {build : τ → α}
    {parts : α → τ} {a : α} {p : Prop} (h : fields.Faithful (parts a) p) (hnames : fields.names.Nodup)
    (hbuild : build (parts a) = a) : (record name fields build parts).Faithful a p := by
  rintro _ ⟨members, hmembers, rfl⟩ budget layout level rest s hrest hs
  rw [written_object] at hs
  cases budget with
  | zero =>
    have hread : (record name fields build parts).read 0 s = .error (.text .tooDeep) := by
      simp only [record, hs]
    exact .of_error hread fun h => Nat.not_succ_le_zero _ h.2
  | succ budget =>
    simp only [record, hs]
    refine OkIff.congr (OkIff.bind_ok
      (Fields.readMembers_written layout (level + 1) level _ rest h hmembers hnames) ?_) ?_
    · change (fields.complete (fields.filled (parts a)) >>= _) = _
      rw [Fields.complete_filled]
      change Except.ok (build (parts a), rest) = _
      rw [hbuild]
    · rw [depth, Nat.add_le_add_iff_right]

end Codec

end FlowEngine
