import FlowEngine.Decimal.Binary
import FlowEngine.Dict

/-!
# JSON trees

A JSON document as a tree. Objects keep their members as written, in order and with repetitions;
`Json.normalize` sorts them and lets the last of several members with one key win.

## Main definitions

* `Json.Number`, `Json`: numbers and trees.
* `Json.ofFloat`: the tree of a double.
* `Json.depth`: how deeply arrays and objects nest.
* `Json.normalize`: the tree with sorted members.
-/

namespace FlowEngine

/-- A number: an integer that fits in 64 bits, with or without sign, or a double. -/
inductive Json.Number where
  | whole (n : Int)
  | real (x : Float)
  deriving DecidableEq

/-- A JSON tree. -/
inductive Json where
  | null
  | bool (b : Bool)
  | number (n : Json.Number)
  | string (s : String)
  | array (items : List Json)
  | object (members : List (String × Json))

instance : Inhabited Json := ⟨.null⟩

namespace Json

/-- The double nearest to a number. -/
def Number.toFloat : Number → Float
  | .whole n => if n < 0 then -Float.ofNat n.natAbs else Float.ofNat n.natAbs
  | .real x => x

/-- The tree of a double. Infinities and NaN have no JSON form and become null. -/
def ofFloat (x : Float) : Json := if Binary.isFinite x then .number (.real x) else .null

mutual

/-- How deeply arrays and objects nest; a tree without any has depth zero. -/
def depth : Json → Nat
  | .null | .bool _ | .number _ | .string _ => 0
  | .array items => depthItems items + 1
  | .object members => depthMembers members + 1

/-- The greatest depth among items. -/
def depthItems : List Json → Nat
  | [] => 0
  | item :: items => max (depth item) (depthItems items)

/-- The greatest depth among the values of members. -/
def depthMembers : List (String × Json) → Nat
  | [] => 0
  | (_, value) :: members => max (depth value) (depthMembers members)

end

theorem depthItems_le_iff {items : List Json} {n : Nat} :
    depthItems items ≤ n ↔ ∀ item ∈ items, depth item ≤ n := by
  induction items with
  | nil => simp [depthItems]
  | cons item items ih => rw [depthItems, Nat.max_le, ih, List.forall_mem_cons]

theorem depthMembers_le_iff {members : List (String × Json)} {n : Nat} :
    depthMembers members ≤ n ↔ ∀ m ∈ members, depth m.2 ≤ n := by
  induction members with
  | nil => simp [depthMembers]
  | cons m members ih =>
    obtain ⟨key, value⟩ := m
    rw [depthMembers, Nat.max_le, ih, List.forall_mem_cons]

mutual

/-- Sorts the members of all objects by key. Of several members with one key the last one stays. -/
def normalize : Json → Json
  | .null => .null
  | .bool b => .bool b
  | .number n => .number n
  | .string s => .string s
  | .array items => .array (normalizeItems items)
  | .object members => .object (Entries.normalize (normalizeMembers members))

/-- Normalizes every item. -/
def normalizeItems : List Json → List Json
  | [] => []
  | item :: items => normalize item :: normalizeItems items

/-- Normalizes the value of every member. -/
def normalizeMembers : List (String × Json) → List (String × Json)
  | [] => []
  | (key, value) :: members => (key, normalize value) :: normalizeMembers members

end

end Json

end FlowEngine
