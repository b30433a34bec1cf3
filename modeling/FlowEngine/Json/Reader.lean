import FlowEngine.Json.Scanner

/-!
# Reading JSON trees

A document becomes a tree. How deeply arrays and objects may nest is given by a budget, of which
each container takes one.

## Main definitions

* `Json.read`: a tree at the start of a document.
* `Json.parse`: the tree of a whole document, with sorted members.
* `Json.wrongTypeAt`: the fault of a value of another type than expected.
-/

namespace FlowEngine

namespace Json

/-- How deeply arrays and objects may nest in a document. -/
def depthLimit : Nat := 127

/-- A tree whose items and members are read by `nested`, if containers may be entered at all. -/
def readWith (nested : Option (Glyphs → Except Fault (Json × Glyphs))) (s : Glyphs) :
    Except Fault (Json × Glyphs) :=
  match skipBlanks s with
  | [] => .error (.text .endInValue)
  | some 'n' :: s => (expectWord ['u', 'l', 'l'] s).map fun s => (.null, s)
  | some 't' :: s => (expectWord ['r', 'u', 'e'] s).map fun s => (.bool true, s)
  | some 'f' :: s => (expectWord ['a', 'l', 's', 'e'] s).map fun s => (.bool false, s)
  | some '"' :: s => (readString s).map fun (text, s) => (.string text, s)
  | some '[' :: s =>
    match nested with
    | none => .error (.text .tooDeep)
    | some item => do
      let (items, s) ← readItems item s
      return (.array items, ← closeList s)
  | some '\x7b' :: s =>
    match nested with
    | none => .error (.text .tooDeep)
    | some value => do
      let (members, s) ← readMembers value s
      return (.object members, ← closeObject s)
  | g :: s =>
    if startsNumber g then (readNumber (g :: s)).map fun (n, s) => (.number n, s)
    else .error (.text .expectedValue)

/-- A tree that nests at most as deeply as the budget says. -/
def read : Nat → Glyphs → Except Fault (Json × Glyphs)
  | 0 => readWith none
  | budget + 1 => readWith (some (read budget))

/-- The tree of a whole document, with sorted members. -/
def parse (s : Glyphs) : Except Fault Json := do
  let (json, s) ← read depthLimit s
  closeDocument s
  return json.normalize

/-- The fault of a value that starts here and has another type than expected. The value itself has
to be sound, as far as it is no container. -/
def wrongTypeAt (expected : String) (s : Glyphs) : Fault :=
  let start : Except Fault Found := match s with
    | some '[' :: _ => .ok .list
    | some '\x7b' :: _ => .ok .map
    | s => (readWith none s).map fun (json, _) => Found.ofJson json
  match start with
  | .ok found => .wrongType found expected
  | .error fault => fault

end Json

end FlowEngine
