import FlowEngine.Proofs.Wire.Faithful

/-!
# Trees are read back

A printed tree is read back as a tree of its own, and not only as a value of some type. Two things
stand in the way. Members may be out of order, and of a repeated key only the last one stays: so what
is read back is the tree with its members sorted. And a number may have a text that is read as another
number, which is why all numbers inside are asked for theirs.

## Main definitions

* `Json.allNumbers`: all numbers inside a tree.

## Main results

* `Json.readsBack_read`: trees are read back as they were written, members unsorted.
* `Json.parse_render`: whole documents.
* `Codec.faithful_json`: trees whose members are sorted are read back as they are.
-/

namespace FlowEngine

namespace Json

/-- Induction over a tree and the trees inside it. -/
@[elab_as_elim]
theorem induction {motive : Json → Prop} (null : motive .null) (bool : ∀ b, motive (.bool b))
    (number : ∀ n, motive (.number n)) (string : ∀ s, motive (.string s))
    (array : ∀ items, (∀ item ∈ items, motive item) → motive (.array items))
    (object : ∀ members, (∀ m ∈ members, motive m.2) → motive (.object members)) :
    ∀ json, motive json
  | .null => null
  | .bool b => bool b
  | .number n => number n
  | .string s => string s
  | .array items => array items fun item hitem =>
    have hlt : sizeOf item < 1 + sizeOf items := Nat.lt_add_left 1 (List.sizeOf_lt_of_mem hitem)
    induction null bool number string array object item
  | .object members => object members fun (key, value) hm =>
    have hlt : sizeOf (key, value) < sizeOf members := List.sizeOf_lt_of_mem hm
    have hlt : sizeOf value < 1 + sizeOf members := by
      rw [Prod.mk.sizeOf_spec] at hlt
      omega
    induction null bool number string array object value
termination_by json => sizeOf json

/-! ## Numbers inside -/

mutual

/-- The numbers inside a tree, in order. -/
def allNumbers : Json → List Number
  | .null | .bool _ | .string _ => []
  | .number n => [n]
  | .array items => allNumbersOfItems items
  | .object members => allNumbersOfMembers members

/-- The numbers inside items. -/
def allNumbersOfItems : List Json → List Number
  | [] => []
  | item :: items => allNumbers item ++ allNumbersOfItems items

/-- The numbers inside the values of members. -/
def allNumbersOfMembers : List (String × Json) → List Number
  | [] => []
  | (_, value) :: members => allNumbers value ++ allNumbersOfMembers members

end

theorem forall_mem_allNumbers_array {items : List Json} {p : Number → Prop} :
    (∀ n ∈ (array items).allNumbers, p n) ↔ ∀ item ∈ items, ∀ n ∈ item.allNumbers, p n := by
  rw [allNumbers]
  induction items with
  | nil => simp [allNumbersOfItems]
  | cons item items ih => rw [allNumbersOfItems, List.forall_mem_append, ih, List.forall_mem_cons]

theorem forall_mem_allNumbers_object {members : List (String × Json)} {p : Number → Prop} :
    (∀ n ∈ (object members).allNumbers, p n) ↔ ∀ m ∈ members, ∀ n ∈ m.2.allNumbers, p n := by
  rw [allNumbers]
  induction members with
  | nil => simp [allNumbersOfMembers]
  | cons m members ih =>
    obtain ⟨key, value⟩ := m
    rw [allNumbersOfMembers, List.forall_mem_append, ih, List.forall_mem_cons]

/-! ## Sorted members -/

theorem normalizeItems_eq_map (items : List Json) : normalizeItems items = items.map normalize := by
  induction items with
  | nil => rfl
  | cons item items ih => rw [normalizeItems, ih, List.map_cons]

theorem normalizeMembers_eq_map (members : List (String × Json)) :
    normalizeMembers members = members.map fun m => (m.1, normalize m.2) := by
  induction members with
  | nil => rfl
  | cons m members ih =>
    obtain ⟨key, value⟩ := m
    rw [normalizeMembers, ih, List.map_cons]

/-! ## Reading -/

theorem exists_read_eq (budget : Nat) : ∃ nested, Json.read budget = readWith nested := by
  cases budget with
  | zero => exact ⟨none, rfl⟩
  | succ budget => exact ⟨some (Json.read budget), rfl⟩

/-- Blanks in front do not matter. -/
theorem readWith_of_skipBlanks {nested : Option (Glyphs → Except Fault (Json × Glyphs))} {s t : Glyphs}
    (h : skipBlanks s = skipBlanks t) : readWith nested s = readWith nested t := by
  rw [readWith, h, ← readWith]

/-- What is no container is read back, however little may be entered. -/
theorem readsBack_scalar {json : Json} {budget : Nat} (hdepth : json.depth = 0)
    (h : ∀ nested layout level rest, Ended rest →
      readWith nested (written layout level json rest) = .ok (json, rest)) :
    ReadsBack (Json.read budget) json (json.depth ≤ budget) json := by
  intro layout level rest s hrest hs
  obtain ⟨nested, hread⟩ := exists_read_eq budget
  refine (OkIff.of_ok ?_).congr (by simp [hdepth])
  rw [hread, readWith_of_skipBlanks (hs.trans (skipBlanks_written layout level json).symm)]
  exact h nested layout level rest hrest

/-- A list is read if containers may be entered at all. -/
theorem readWith_list {nested : Option (Glyphs → Except Fault (Json × Glyphs))} {s t : Glyphs}
    (h : skipBlanks s = some '[' :: t) :
    readWith nested s = match nested with
      | none => .error (.text .tooDeep)
      | some item => readItems item t >>= fun x => closeList x.2 >>= fun s => .ok (.array x.1, s) := by
  rw [readWith, h]
  rfl

/-- An object is read if containers may be entered at all. -/
theorem readWith_object {nested : Option (Glyphs → Except Fault (Json × Glyphs))} {s t : Glyphs}
    (h : skipBlanks s = some '\x7b' :: t) :
    readWith nested s = match nested with
      | none => .error (.text .tooDeep)
      | some value => readMembers value t >>= fun x => closeObject x.2 >>= fun s => .ok (.object x.1, s) := by
  rw [readWith, h]
  rfl

/-- Lists take one container of the budget. -/
theorem readsBack_array {items : List Json}
    (h : ∀ budget, ∀ item ∈ items, ReadsBack (Json.read budget) item (item.depth ≤ budget) item)
    (budget : Nat) :
    ReadsBack (Json.read budget) (.array items) ((array items).depth ≤ budget) (.array items) := by
  intro layout level rest s _ hs
  rw [written_array] at hs
  cases budget with
  | zero => exact .of_error (readWith_list hs) (Nat.not_succ_le_zero _)
  | succ budget =>
    have hitems : OkIff (readItems (Json.read budget) (writtenItems layout (level + 1) true items
          (closing layout level items.isEmpty ']' rest)))
        (∀ item ∈ items, item.depth ≤ budget) (items, some ']' :: rest) := by
      simpa only [List.map_id'] using readItems_written layout (level + 1) level items.isEmpty (h budget)
    rw [Json.read, readWith_list hs]
    refine OkIff.congr (hitems.bind_ok rfl) ?_
    rw [depth, Nat.add_le_add_iff_right, depthItems_le_iff]

/-- Objects take one container of the budget. -/
theorem readsBack_object {members : List (String × Json)}
    (h : ∀ budget, ∀ m ∈ members, ReadsBack (Json.read budget) m.2 (m.2.depth ≤ budget) m.2)
    (budget : Nat) :
    ReadsBack (Json.read budget) (.object members) ((object members).depth ≤ budget) (.object members) := by
  intro layout level rest s _ hs
  rw [written_object] at hs
  cases budget with
  | zero => exact .of_error (readWith_object hs) (Nat.not_succ_le_zero _)
  | succ budget =>
    have hmembers : OkIff (readMembers (Json.read budget) (writtenMembers layout (level + 1) true
          (members.map fun m => (m.1, m.2)) (closing layout level members.isEmpty '\x7d' rest)))
        (∀ m ∈ members, m.2.depth ≤ budget) (members.map fun m => (m.1, m.2), some '\x7d' :: rest) :=
      readMembers_written layout (level + 1) level members.isEmpty (h budget)
    rw [show (fun m : String × Json => (m.1, m.2)) = id from rfl, List.map_id] at hmembers
    rw [Json.read, readWith_object hs]
    refine OkIff.congr (hmembers.bind_ok rfl) ?_
    rw [depth, Nat.add_le_add_iff_right, depthMembers_le_iff]

/-- A tree is read back if it does not nest too deeply and the texts of its numbers are theirs. -/
theorem readsBack_read {json : Json} (h : ∀ n ∈ json.allNumbers, n.ReadsAs n) (budget : Nat) :
    ReadsBack (Json.read budget) json (json.depth ≤ budget) json := by
  induction json using Json.induction generalizing budget with
  | null => exact readsBack_scalar rfl fun _ _ _ _ _ => rfl
  | bool b =>
    refine readsBack_scalar rfl fun nested layout level rest _ => ?_
    cases b <;> rfl
  | number n =>
    refine readsBack_scalar rfl fun nested layout level rest hrest => ?_
    exact readWith_written_number (h n List.mem_cons_self) nested layout level hrest
  | string text =>
    refine readsBack_scalar rfl fun nested layout level rest _ => ?_
    exact readWith_written_string nested layout level text rest
  | array items ih =>
    rw [forall_mem_allNumbers_array] at h
    exact readsBack_array (fun budget item hitem => ih item hitem (h item hitem) budget) budget
  | object members ih =>
    rw [forall_mem_allNumbers_object] at h
    exact readsBack_object (fun budget m hm => ih m hm (h m hm) budget) budget

/-- A document is read back with sorted members. -/
theorem parse_render {json : Json} (h : ∀ n ∈ json.allNumbers, n.ReadsAs n) (layout : Layout) :
    OkIff (Json.parse (Glyphs.ofString (json.render layout))) (json.depth ≤ depthLimit) json.normalize := by
  have hdocument : Glyphs.ofString (json.render layout) = written layout 0 json [] := by
    rw [render, Glyphs.ofString, String.toList_ofList, written, List.append_nil]
  rw [hdocument]
  exact (readsBack_read h depthLimit layout 0 [] _ trivial (skipBlanks_written layout 0 json)).bind_ok rfl

end Json

namespace Codec

open Json

/-- A tree whose members are sorted is read back as it is. -/
theorem faithful_json {tree : Json} (hsorted : tree.normalize = tree)
    (h : ∀ n ∈ tree.allNumbers, n.ReadsAs n) : json.Faithful tree True := by
  rintro _ rfl budget layout level rest s hrest hs
  have hread := (readsBack_read h budget layout level rest s hrest hs).map fun x => (x.1.normalize, x.2)
  rw [hsorted] at hread
  exact hread.congr (iff_of_eq (true_and _).symm)

end Codec

end FlowEngine
