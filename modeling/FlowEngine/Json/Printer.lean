import FlowEngine.Decimal.Notation
import FlowEngine.Json.Basic
import FlowEngine.Text.Natural

/-!
# JSON text

Writing trees. The compact layout has no blanks; the indented one gives every item and member a
line of its own, two spaces deeper than its container, and a space after the colon.

## Main definitions

* `Json.Layout`: compact or indented.
* `Json.print`: the text of a tree in a layout.
* `Json.compact`, `Json.indented`, `Json.sortedText`: the whole texts.
-/

namespace FlowEngine

namespace Json

/-- How a document is laid out. -/
inductive Layout where
  | compact
  | indented
  deriving DecidableEq, Repr

/-- What stands before an item or a closing bracket at a level of nesting. -/
def Layout.gap : Layout → Nat → List Char
  | .compact, _ => []
  | .indented, level => '\n' :: List.replicate (2 * level) ' '

/-- What stands between a key and its value. -/
def Layout.colon : Layout → List Char
  | .compact => [':']
  | .indented => [':', ' ']

/-- A character inside a string. Quotes, backslashes and controls are escaped. -/
def escapedChar (c : Char) : List Char :=
  match c with
  | '"' => ['\\', '"']
  | '\\' => ['\\', '\\']
  | '\n' => ['\\', 'n']
  | '\r' => ['\\', 'r']
  | '\t' => ['\\', 't']
  | c =>
    if c.toNat = 8 then ['\\', 'b']
    else if c.toNat = 12 then ['\\', 'f']
    else if c.toNat < 32 then '\\' :: 'u' :: Text.hexDigits 4 c.toNat
    else [c]

/-- A string between quotes. -/
def printString (s : String) : List Char := '"' :: s.toList.flatMap escapedChar ++ ['"']

/-- A number. What is no number of JSON would be null. -/
def printNumber : Number → List Char
  | .whole n => (toString n).toList
  | .real x => ((Decimal.textOfFloat? x).getD "null").toList

mutual

/-- The text of a tree that stands at a level of nesting. -/
def print (layout : Layout) (level : Nat) : Json → List Char
  | .null => "null".toList
  | .bool b => (if b then "true" else "false").toList
  | .number n => printNumber n
  | .string s => printString s
  | .array [] => ['[', ']']
  | .array (item :: items) =>
    '[' :: layout.gap (level + 1) ++ print layout (level + 1) item ++
      printItems layout (level + 1) items ++ layout.gap level ++ [']']
  | .object [] => ['\x7b', '\x7d']
  | .object ((key, value) :: members) =>
    '\x7b' :: layout.gap (level + 1) ++ printString key ++ layout.colon ++
      print layout (level + 1) value ++ printMembers layout (level + 1) members ++
      layout.gap level ++ ['\x7d']

/-- The items of an array after the first one. -/
def printItems (layout : Layout) (level : Nat) : List Json → List Char
  | [] => []
  | item :: items =>
    ',' :: layout.gap level ++ print layout level item ++ printItems layout level items

/-- The members of an object after the first one. -/
def printMembers (layout : Layout) (level : Nat) : List (String × Json) → List Char
  | [] => []
  | (key, value) :: members =>
    ',' :: layout.gap level ++ printString key ++ layout.colon ++ print layout level value ++
      printMembers layout level members

end

/-- A document in a layout. -/
def render (layout : Layout) (json : Json) : String := String.ofList (print layout 0 json)

/-- A document without blanks. -/
def compact (json : Json) : String := json.render .compact

/-- A document with a line for every item and member. -/
def indented (json : Json) : String := json.render .indented

/-- A document without blanks and with sorted members. -/
def sortedText (json : Json) : String := json.normalize.compact

end Json

end FlowEngine
