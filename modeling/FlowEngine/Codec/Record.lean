import FlowEngine.Codec.Basic

/-!
# Codecs of records

A record is written as an object of its fields. It is read from an object with its fields in any
order, where further members are ignored, or from a sequence of its fields in their order.

## Main definitions

* `Field`: the name and representation of a field.
* `Fields`: the fields of a record, indexed by the type of their values and of their slots.
* `Codec.record`: the representation of a record.
-/

namespace FlowEngine

open Json

/-- A field of a record. -/
structure Field (α : Type) where
  name : String
  codec : Codec α
  /-- The value of the field if it is left out, in an object or at the end of a sequence. -/
  fallback : Option α := none

/-- Fields in order, with the type of their values and the type of the slots that hold those that
have been read. -/
inductive Fields : Type → Type → Type 1 where
  | nil : Fields Unit Unit
  | cons {α τ σ : Type} (field : Field α) (rest : Fields τ σ) : Fields (α × τ) (Option α × σ)

namespace Fields

variable {τ σ : Type}

/-- The number of fields. -/
def count : {τ σ : Type} → Fields τ σ → Nat
  | _, _, .nil => 0
  | _, _, .cons _ rest => rest.count + 1

/-- Slots without values. -/
def vacant : {τ σ : Type} → Fields τ σ → σ
  | _, _, .nil => ()
  | _, _, .cons _ rest => (none, rest.vacant)

/-- The values of all fields, once no more are to come. -/
def complete : {τ σ : Type} → Fields τ σ → σ → Except Fault τ
  | _, _, .nil, _ => .ok ()
  | _, _, .cons field rest, (slot, slots) =>
    match slot.or (field.fallback.or field.codec.absent) with
    | some a => (rest.complete slots).map fun values => (a, values)
    | none => .error (.missingField field.name)

/-- Fills the slot of the field with this name, if there is one, by a function of the codec. -/
def fill {ρ : Type} (key : String) (value : {α : Type} → Codec α → Except Fault (α × ρ)) :
    {τ σ : Type} → Fields τ σ → σ → Option (Except Fault (σ × ρ))
  | _, _, .nil, _ => none
  | _, _, .cons field rest, (slot, slots) =>
    if key = field.name then
      some (if slot.isSome then .error (.duplicateField key)
        else (value field.codec).map fun (a, r) => ((some a, slots), r))
    else (rest.fill key value slots).map fun filled => filled.map fun (slots, r) => ((slot, slots), r)

/-- The members of an object up to and without its closing brace. -/
def readMembersFrom (fields : Fields τ σ) (budget : Nat) :
    Nat → Bool → σ → Glyphs → Except Fault (σ × Glyphs)
  | 0, _, _, _ => .error (.text .endInObject)
  | fuel + 1, first, slots, s => do
    match ← nextKey first s with
    | .done s => return (slots, s)
    | .more s =>
      let (key, s) ← readString s
      let filled := fields.fill key (fun codec => do codec.read budget (← readColon s)) slots
      let (slots, s) ← match filled with
        | some filled => filled
        | none => pure (slots, ← skipValue (← readColon s))
      readMembersFrom fields budget fuel false slots s

/-- How a message names the length that a sequence should have. -/
def expectedLength (name : String) (n : Nat) : String :=
  s!"struct {name} with {n} element" ++ if n = 1 then "" else "s"

/-- The items of a sequence, as far as there are fields for them. -/
def readItems (expected : String) (budget : Nat) :
    {τ σ : Type} → Fields τ σ → Nat → Glyphs → Except Fault (τ × Glyphs)
  | _, _, .nil, _, s => .ok ((), s)
  | _, _, .cons field rest, index, s => do
    match ← nextItem (index == 0) s with
    | .more s =>
      let (a, s) ← field.codec.read budget s
      let (values, s) ← rest.readItems expected budget (index + 1) s
      return ((a, values), s)
    | .done s =>
      match field.fallback with
      | none => throw (.wrongLength index expected)
      | some a =>
        let (values, s) ← rest.readItems expected budget (index + 1) s
        return ((a, values), s)

/-- The slots after the members of an object. -/
def fillMembers (fields : Fields τ σ) : List (String × Json) → σ → Except Fault σ
  | [], slots => .ok slots
  | (key, json) :: members, slots => do
    match fields.fill key (fun codec => (codec.ofTree json).map fun a => (a, ())) slots with
    | some filled =>
      let (slots, _) ← filled
      fields.fillMembers members slots
    | none => fields.fillMembers members slots

/-- The values of a sequence of trees, and the trees left over. -/
def ofItems (expected : String) :
    {τ σ : Type} → Fields τ σ → Nat → List Json → Except Fault (τ × List Json)
  | _, _, .nil, _, items => .ok ((), items)
  | _, _, .cons field rest, index, item :: items => do
    let a ← field.codec.ofTree item
    let (values, items) ← rest.ofItems expected (index + 1) items
    return ((a, values), items)
  | _, _, .cons field rest, index, [] => do
    match field.fallback with
    | none => throw (.wrongLength index expected)
    | some a =>
      let (values, items) ← rest.ofItems expected (index + 1) []
      return ((a, values), items)

/-- The members of an object with the values of all fields. -/
def toMembers : {τ σ : Type} → Fields τ σ → τ → List (String × Json)
  | _, _, .nil, _ => []
  | _, _, .cons field rest, (a, values) =>
    (field.name, field.codec.toTree a) :: rest.toMembers values

/-- The members that the values of all fields may be written as. Fields keep their order. -/
def Writes : {τ σ : Type} → Fields τ σ → τ → List (String × Json) → Prop
  | _, _, .nil, _, members => members = []
  | _, _, .cons field rest, (a, values), members => ∃ tree others,
    field.codec.Writes a tree ∧ rest.Writes values others ∧ members = (field.name, tree) :: others

theorem writes_toMembers (fields : Fields τ σ) (values : τ) :
    fields.Writes values (fields.toMembers values) := by
  induction fields with
  | nil => rfl
  | cons field rest ih => exact ⟨_, _, field.codec.writes_toTree values.1, ih values.2, rfl⟩

end Fields

/-- The representation of a record with a name and fields, whose values are its `parts`. -/
def Codec.record {α τ σ : Type} (name : String) (fields : Fields τ σ) (build : τ → α)
    (parts : α → τ) : Codec α where
  read := fun budget s =>
    match skipBlanks s with
    | [] => .error (.text .endInValue)
    | some '\x7b' :: s =>
      match budget with
      | 0 => .error (.text .tooDeep)
      | budget + 1 => do
        let (slots, s) ← fields.readMembersFrom budget (s.length + 1) true fields.vacant s
        let values ← fields.complete slots
        return (build values, ← closeObject s)
    | some '[' :: s =>
      match budget with
      | 0 => .error (.text .tooDeep)
      | budget + 1 => do
        let (values, s) ← fields.readItems (Fields.expectedLength name fields.count) budget 0 s
        return (build values, ← closeList s)
    | s => .error (wrongTypeAt s!"struct {name}" s)
  ofTree := fun
    | .object members => do
      return build (← fields.complete (← fields.fillMembers members fields.vacant))
    | .array items => do
      let expected := Fields.expectedLength name fields.count
      let (values, rest) ← fields.ofItems expected 0 items
      if rest.isEmpty then return build values
      else throw (.wrongLength items.length "fewer elements in array")
    | json => .error (.wrongType (.ofJson json) s!"struct {name}")
  toTree := fun a => .object (fields.toMembers (parts a))
  Writes := fun a tree => ∃ members, fields.Writes (parts a) members ∧ tree = .object members
  writes_toTree := fun a => ⟨_, fields.writes_toMembers (parts a), rfl⟩

end FlowEngine
