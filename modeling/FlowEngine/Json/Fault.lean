import FlowEngine.Decimal.Notation
import FlowEngine.Json.Basic
import FlowEngine.Text.Quoted

/-!
# Faults of documents

What can be wrong with a document: its text is no JSON, or it is JSON of another shape than the
reader asks for.

## Main definitions

* `Json.TextFault`: the text is no JSON.
* `Json.Found`: what stands where something else was expected.
* `Json.Fault`: any fault, and its message.
-/

namespace FlowEngine

namespace Json

/-- A text that is no JSON. -/
inductive TextFault where
  | endInValue
  | endInList
  | endInObject
  | endInString
  | expectedColon
  | expectedListEnd
  | expectedObjectEnd
  | expectedWord
  | expectedValue
  | badEscape
  | badNumber
  | numberOutOfRange
  | badCodePoint
  | controlCharacter
  | keyNotString
  | loneSurrogate
  | unfinishedSurrogate
  | trailingComma
  | trailingCharacters
  | tooDeep
  deriving DecidableEq, Repr

/-- The message of a text fault. -/
def TextFault.message : TextFault → String
  | .endInValue => "EOF while parsing a value"
  | .endInList => "EOF while parsing a list"
  | .endInObject => "EOF while parsing an object"
  | .endInString => "EOF while parsing a string"
  | .expectedColon => "expected `:`"
  | .expectedListEnd => "expected `,` or `]`"
  | .expectedObjectEnd => "expected `,` or `\x7d`"
  | .expectedWord => "expected ident"
  | .expectedValue => "expected value"
  | .badEscape => "invalid escape"
  | .badNumber => "invalid number"
  | .numberOutOfRange => "number out of range"
  | .badCodePoint => "invalid unicode code point"
  | .controlCharacter => "control character (\\u0000-\\u001F) found while parsing a string"
  | .keyNotString => "key must be a string"
  | .loneSurrogate => "lone leading surrogate in hex escape"
  | .unfinishedSurrogate => "unexpected end of hex escape"
  | .trailingComma => "trailing comma"
  | .trailingCharacters => "trailing characters"
  | .tooDeep => "recursion limit exceeded"

/-- What stands where something else was expected. -/
inductive Found where
  | null
  | bool (b : Bool)
  | whole (n : Int)
  | real (x : Float)
  | string (s : String)
  | list
  | map
  deriving DecidableEq

/-- How a message names what was found. -/
def Found.text : Found → String
  | .null => "null"
  | .bool b => s!"boolean `{b}`"
  | .whole n => s!"integer `{n}`"
  | .real x => "floating point `" ++ (Decimal.textOfFloat? x).getD "null" ++ "`"
  | .string s => "string " ++ Text.quoted s
  | .list => "sequence"
  | .map => "map"

/-- What a number is found as. -/
def Found.ofNumber : Number → Found
  | .whole n => .whole n
  | .real x => .real x

/-- What a tree is found as. -/
def Found.ofJson : Json → Found
  | .null => .null
  | .bool b => .bool b
  | .number n => .ofNumber n
  | .string s => .string s
  | .array _ => .list
  | .object _ => .map

/-- What is wrong with a document. -/
inductive Fault where
  /-- The text is no JSON. -/
  | text (fault : TextFault)
  /-- Something of another type stands here. -/
  | wrongType (found : Found) (expected : String)
  /-- The type is right but the value is not allowed. -/
  | wrongValue (found : Found) (expected : String)
  /-- A sequence has the wrong length. -/
  | wrongLength (length : Nat) (expected : String)
  /-- No variant has this name. -/
  | unknownVariant (name : String) (variants : List String)
  /-- A record lacks a field. -/
  | missingField (name : String)
  /-- A record has a field twice. -/
  | duplicateField (name : String)
  /-- A text does not follow the format that its type asks for. -/
  | malformed (reason : String)
  deriving DecidableEq

/-- The names that may stand somewhere, as a message lists them. -/
def alternatives : List String → String
  | [] => "there are no variants"
  | [a] => s!"expected `{a}`"
  | [a, b] => s!"expected `{a}` or `{b}`"
  | names => "expected one of " ++ ", ".intercalate (names.map fun n => s!"`{n}`")

/-- The message of a fault. -/
def Fault.message : Fault → String
  | .text fault => fault.message
  | .wrongType found expected => "invalid type: " ++ found.text ++ ", expected " ++ expected
  | .wrongValue found expected => "invalid value: " ++ found.text ++ ", expected " ++ expected
  | .wrongLength length expected => s!"invalid length {length}, expected {expected}"
  | .unknownVariant name variants => s!"unknown variant `{name}`, " ++ alternatives variants
  | .missingField name => s!"missing field `{name}`"
  | .duplicateField name => s!"duplicate field `{name}`"
  | .malformed reason => reason

end Json

end FlowEngine
