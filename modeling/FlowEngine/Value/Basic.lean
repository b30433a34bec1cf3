import FlowEngine.Decimal.Binary
import FlowEngine.Dict
import FlowEngine.Text.Blank
import FlowEngine.Text.Natural

/-!
# Values

The dynamic values that envelopes and node configurations carry.

## Main definitions

* `Value`: null, booleans, numbers, strings, bytes, arrays and objects.
* `Value.Canonical`: all objects inside have increasing keys.
* `Value.same`: equality, where numbers are compared as numbers.
* `Value.asString?`, `Value.asNatural?` and so on: views of a value as another type.
* `DataType`: the shape of a payload.
-/

namespace FlowEngine

/-- A dynamic value. -/
inductive Value where
  | null
  | bool (b : Bool)
  | number (x : Float)
  | string (s : String)
  | bytes (b : List UInt8)
  | array (items : List Value)
  | object (members : List (String × Value))

instance : Inhabited Value := ⟨.null⟩

/-- Induction over a value and the values inside it. -/
@[elab_as_elim]
theorem Value.induction {motive : Value → Prop} (null : motive .null)
    (bool : ∀ b, motive (.bool b)) (number : ∀ x, motive (.number x))
    (string : ∀ s, motive (.string s)) (bytes : ∀ b, motive (.bytes b))
    (array : ∀ items, (∀ v ∈ items, motive v) → motive (.array items))
    (object : ∀ members, (∀ m ∈ members, motive m.2) → motive (.object members)) :
    ∀ v, motive v
  | .null => null
  | .bool b => bool b
  | .number x => number x
  | .string s => string s
  | .bytes b => bytes b
  | .array items => array items fun v hv =>
    have hlt : sizeOf v < 1 + sizeOf items := Nat.lt_add_left 1 (List.sizeOf_lt_of_mem hv)
    Value.induction null bool number string bytes array object v
  | .object members => object members fun (key, v) hm =>
    have hlt : sizeOf (key, v) < sizeOf members := List.sizeOf_lt_of_mem hm
    have hlt : sizeOf v < 1 + sizeOf members := by
      rw [Prod.mk.sizeOf_spec] at hlt
      omega
    Value.induction null bool number string bytes array object v
termination_by v => sizeOf v

/-- The shape of a payload. -/
inductive DataType where
  | null
  | boolean
  | number
  | string
  | binary
  | array
  | object
  | unknown
  deriving DecidableEq, Repr

/-- The name of a shape. -/
def DataType.name : DataType → String
  | .null => "null"
  | .boolean => "boolean"
  | .number => "number"
  | .string => "string"
  | .binary => "binary"
  | .array => "array"
  | .object => "object"
  | .unknown => "unknown"

namespace Value

/-- An object with these members, of which the last one with a key counts. -/
def ofMembers (members : List (String × Value)) : Value := .object (Entries.normalize members)

/-- An object with the entries of a dictionary. -/
def ofDict (d : Dict Value) : Value := .object d.entries

/-- A natural number as a value. -/
def ofNat (n : Nat) : Value := .number (Float.ofNat n)

/-- The shape of a value. -/
def dataType : Value → DataType
  | .null => .null
  | .bool _ => .boolean
  | .number _ => .number
  | .string _ => .string
  | .bytes _ => .binary
  | .array _ => .array
  | .object _ => .object

/-- The text of a string. -/
def asString? : Value → Option String
  | .string s => some s
  | _ => none

/-- The number itself. -/
def asNumber? : Value → Option Float
  | .number x => some x
  | _ => none

/-- The boolean itself. -/
def asBool? : Value → Option Bool
  | .bool b => some b
  | _ => none

/-- The items of an array. -/
def asArray? : Value → Option (List Value)
  | .array items => some items
  | _ => none

/-- The members of an object. -/
def asObject? : Value → Option (List (String × Value))
  | .object members => some members
  | _ => none

/-- Whether the value is null. -/
def isNull : Value → Bool
  | .null => true
  | _ => false

/-- The greatest number of 64 bits. -/
def greatestWord : Nat := UInt64.size - 1

/-- A whole number from zero on, at most the greatest of 64 bits, or the number that a string
denotes between its blanks. -/
def asNatural? : Value → Option Nat
  | .number x => (Binary.int? x).bind fun n => if 0 ≤ n then some (min n.toNat greatestWord) else none
  | .string s => Text.bounded? UInt64.size (Text.withoutPlus (Text.trim s.toList))
  | _ => none

mutual

/-- All objects inside have strictly increasing keys. -/
def Canonical : Value → Prop
  | .null | .bool _ | .number _ | .string _ | .bytes _ => True
  | .array items => CanonicalItems items
  | .object members => Entries.Sorted members ∧ CanonicalMembers members

/-- All items are canonical. -/
def CanonicalItems : List Value → Prop
  | [] => True
  | item :: items => Canonical item ∧ CanonicalItems items

/-- The values of all members are canonical. -/
def CanonicalMembers : List (String × Value) → Prop
  | [] => True
  | (_, value) :: members => Canonical value ∧ CanonicalMembers members

end

mutual

/-- Equality of values. Numbers are compared as numbers: zero equals negative zero, and NaN differs
from itself. -/
def same : Value → Value → Bool
  | .null, .null => true
  | .bool a, .bool b => a == b
  | .number x, .number y => x == y
  | .string a, .string b => a == b
  | .bytes a, .bytes b => a == b
  | .array a, .array b => sameItems a b
  | .object a, .object b => sameMembers a b
  | _, _ => false

/-- Item by item equality. -/
def sameItems : List Value → List Value → Bool
  | [], [] => true
  | a :: as, b :: bs => same a b && sameItems as bs
  | _, _ => false

/-- Member by member equality. -/
def sameMembers : List (String × Value) → List (String × Value) → Bool
  | [], [] => true
  | (k, a) :: as, (l, b) :: bs => k == l && same a b && sameMembers as bs
  | _, _ => false

end

instance : BEq Value := ⟨same⟩

@[simp] theorem canonical_ofDict_iff (d : Dict Value) :
    Canonical (ofDict d) ↔ CanonicalMembers d.entries := by
  simp [ofDict, Canonical, d.sorted]

end Value

end FlowEngine
