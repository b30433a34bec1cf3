import FlowEngine.Value.Basic

/-!
# Dotted paths

A path such as `items` or `response.rows.0` names a position inside a value: each nonempty segment
between dots is a key of an object or an index of an array. The empty path names the value itself.

## Main definitions

* `Text.pieces`: a text cut at every occurrence of a character.
* `Value.segments`: the nonempty segments of a path.
* `Value.child?`: the value at one segment.
* `Value.at?`: the value at a path.
-/

namespace FlowEngine

/-- A text cut at every occurrence of a character; there is one piece more than occurrences. -/
def Text.pieces (separator : Char) : List Char → List (List Char)
  | [] => [[]]
  | c :: cs =>
    if c = separator then [] :: pieces separator cs
    else
      match pieces separator cs with
      | [] => [[c]]
      | piece :: rest => (c :: piece) :: rest

namespace Value

/-- The nonempty segments of a path. -/
def segments (path : String) : List String :=
  ((Text.pieces '.' path.toList).filter fun piece => !piece.isEmpty).map String.ofList

/-- The value under a key of an object or at an index of an array. -/
def child? (v : Value) (segment : String) : Option Value :=
  match v with
  | .object members => Entries.find? members segment
  | .array items => (Text.word? segment).bind fun i => items[i]?
  | _ => none

/-- The value that a list of segments leads to. -/
def descend? (v : Value) (segments : List String) : Option Value := segments.foldlM child? v

/-- The value at a path. -/
def at? (v : Value) (path : String) : Option Value := v.descend? (segments path)

@[simp] theorem descend?_nil (v : Value) : v.descend? [] = some v := rfl

@[simp] theorem descend?_cons (v : Value) (segment : String) (rest : List String) :
    v.descend? (segment :: rest) = (v.child? segment).bind fun w => w.descend? rest := rfl

end Value

end FlowEngine
