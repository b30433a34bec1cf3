import FlowEngine.Json.Basic

/-!
# Capabilities

The set of contracts that a node type satisfies.

## Main definitions

* `Capability`: the contracts.
* `Capabilities`: sets of contracts, with union, inclusion and text.
-/

namespace FlowEngine

/-- A contract. -/
inductive Capability where
  | action
  | model
  | memory
  | tool
  | trigger
  deriving DecidableEq, Repr

namespace Capability

/-- All contracts in order. -/
def all : List Capability := [.action, .model, .memory, .tool, .trigger]

/-- The name of a contract. -/
def name : Capability → String
  | .action => "action"
  | .model => "model"
  | .memory => "memory"
  | .tool => "tool"
  | .trigger => "trigger"

end Capability

/-- A set of contracts. -/
structure Capabilities where
  action : Bool := false
  model : Bool := false
  memory : Bool := false
  tool : Bool := false
  trigger : Bool := false
  deriving DecidableEq, Repr

namespace Capabilities

/-- Whether a contract is in a set. -/
def has (s : Capabilities) : Capability → Bool
  | .action => s.action
  | .model => s.model
  | .memory => s.memory
  | .tool => s.tool
  | .trigger => s.trigger

/-- The set of one contract. -/
def only (c : Capability) : Capabilities where
  action := c == .action
  model := c == .model
  memory := c == .memory
  tool := c == .tool
  trigger := c == .trigger

/-- The union of two sets. -/
def union (s t : Capabilities) : Capabilities where
  action := s.action || t.action
  model := s.model || t.model
  memory := s.memory || t.memory
  tool := s.tool || t.tool
  trigger := s.trigger || t.trigger

/-- Whether a set includes another one. -/
def contains (s t : Capabilities) : Bool := Capability.all.all fun c => !t.has c || s.has c

/-- The set of the contracts in a list. -/
def ofList (cs : List Capability) : Capabilities := cs.foldl (fun s c => s.union (only c)) {}

/-- The contracts of a set in order. -/
def toList (s : Capabilities) : List Capability := Capability.all.filter s.has

/-- The names of the contracts of a set. -/
def names (s : Capabilities) : List String := s.toList.map Capability.name

/-- The names with commas between them. -/
def text (s : Capabilities) : String := ",".intercalate s.names

/-- The names in a form for developers. -/
def debugText (s : Capabilities) : String := "Capabilities(" ++ s.text ++ ")"

/-- The names as a JSON array. -/
def toJson (s : Capabilities) : Json := .array (s.names.map .string)

@[simp] theorem has_union (s t : Capabilities) (c : Capability) :
    (s.union t).has c = (s.has c || t.has c) := by cases c <;> rfl

@[simp] theorem has_only (c d : Capability) : (only c).has d = (c == d) := by cases d <;> rfl

theorem contains_iff (s t : Capabilities) :
    s.contains t = true ↔ ∀ c, t.has c = true → s.has c = true := by
  constructor
  · intro h c hc
    have hall := List.all_eq_true.1 h c (by cases c <;> decide)
    simpa [hc] using hall
  · intro h
    refine List.all_eq_true.2 fun c _ => ?_
    cases hc : t.has c with
    | false => rfl
    | true => simpa using h c hc

end Capabilities

end FlowEngine
