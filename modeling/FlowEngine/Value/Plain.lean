import FlowEngine.Json.Basic
import FlowEngine.Value.Basic

/-!
# Values as plain JSON

Plain JSON has no bytes, no infinities and no NaN: bytes become an array of numbers and the others
null. Whole numbers below `2 ^ 63` become integers.

## Main definitions

* `Value.toJson`: the plain JSON of a value.
* `Value.ofJson`: the value of plain JSON.
-/

namespace FlowEngine

namespace Value

/-- The plain JSON of a number. -/
def numberToJson (x : Float) : Json :=
  match Binary.int? x with
  | some n => if n.natAbs < UInt64.size / 2 then .number (.whole n) else .ofFloat x
  | none => .ofFloat x

mutual

/-- The plain JSON of a value. -/
def toJson : Value → Json
  | .null => .null
  | .bool b => .bool b
  | .number x => numberToJson x
  | .string s => .string s
  | .bytes b => .array (b.map fun n => .number (.whole n.toNat))
  | .array items => .array (itemsToJson items)
  | .object members => .object (membersToJson members)

/-- The plain JSON of every item. -/
def itemsToJson : List Value → List Json
  | [] => []
  | item :: items => toJson item :: itemsToJson items

/-- The plain JSON of every member. -/
def membersToJson : List (String × Value) → List (String × Json)
  | [] => []
  | (key, value) :: members => (key, toJson value) :: membersToJson members

end

mutual

/-- The value of plain JSON. -/
def ofJson : Json → Value
  | .null => .null
  | .bool b => .bool b
  | .number n => .number n.toFloat
  | .string s => .string s
  | .array items => .array (itemsOfJson items)
  | .object members => ofMembers (membersOfJson members)

/-- The value of every item. -/
def itemsOfJson : List Json → List Value
  | [] => []
  | item :: items => ofJson item :: itemsOfJson items

/-- The value of every member. -/
def membersOfJson : List (String × Json) → List (String × Value)
  | [] => []
  | (key, value) :: members => (key, ofJson value) :: membersOfJson members

end

end Value

end FlowEngine
