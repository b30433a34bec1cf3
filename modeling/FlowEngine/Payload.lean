import FlowEngine.Envelope

/-!
# Typed payloads

Types that can stand in an envelope as its payload: they have a representation, a shape, and a name
by which messages refer to them. A dynamic value is decoded to such a type through its plain JSON,
and encoded back the same way.

## Main definitions

* `Payload`: a type of payloads.
* `Value.decode`, `Value.encode`: between dynamic values and payloads.
-/

namespace FlowEngine

/-- A type of payloads. -/
class Payload (α : Type) extends HasDataType α where
  codec : Codec α
  /-- How messages name the type. -/
  typeName : String

namespace Value

/-- The payload that a value represents. -/
def decode (α : Type) [Payload α] (v : Value) : Except NodeError α :=
  ((Payload.codec (α := α)).ofTree v.toJson).mapError fun fault =>
    .typeMismatch (Payload.typeName α) v.dataType.name fault.message

/-- The value that represents a payload. -/
def encode {α : Type} [Payload α] (a : α) : Value := ofJson (Payload.codec.toTree a)

end Value

/-! ### Payload types -/

/-- Sizes of things. -/
structure Size where
  val : UInt64
  deriving DecidableEq

instance : Payload String where
  codec := .text
  typeName := "alloc::string::String"

instance : Payload Bool where
  dataTypeOf _ := .boolean
  codec := .flag
  typeName := "bool"

instance : Payload Int32 where
  dataTypeOf _ := .number
  codec := .int32
  typeName := "i32"

instance : Payload Int64 where
  dataTypeOf _ := .number
  codec := .int64
  typeName := "i64"

instance : Payload UInt8 where
  dataTypeOf _ := .number
  codec := .uint8
  typeName := "u8"

instance : Payload UInt32 where
  dataTypeOf _ := .number
  codec := .uint32
  typeName := "u32"

instance : Payload UInt64 where
  dataTypeOf _ := .number
  codec := .uint64
  typeName := "u64"

instance : Payload Size where
  dataTypeOf _ := .number
  codec := Codec.size.imap Size.mk Size.val
  typeName := "usize"

instance : Payload Float where
  dataTypeOf _ := .number
  codec := .real
  typeName := "f64"

instance : Payload Float32 where
  dataTypeOf _ := .number
  codec := .real32
  typeName := "f32"

instance : Payload Unit where
  dataTypeOf _ := .null
  codec := .unit
  typeName := "()"

instance : Payload Json where
  codec := .json
  typeName := "serde_json::value::Value"

instance : Payload Value where
  codec := .value
  typeName := "melcore::value::Value"

variable {α : Type} [Payload α]

instance : Payload (List α) where
  dataTypeOf _ := .array
  codec := .list Payload.codec
  typeName := "alloc::vec::Vec<" ++ Payload.typeName α ++ ">"

instance : Payload (Dict α) where
  dataTypeOf _ := .object
  codec := .dict Payload.codec
  typeName := "std::collections::hash::map::HashMap<alloc::string::String, " ++
    Payload.typeName α ++ ">"

instance : Payload (Option α) where
  dataTypeOf a := a.elim .null dataTypeOf
  codec := .optional Payload.codec
  typeName := "core::option::Option<" ++ Payload.typeName α ++ ">"

end FlowEngine
