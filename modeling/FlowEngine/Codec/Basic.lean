import FlowEngine.Json.Reader
import FlowEngine.Json.Printer

/-!
# Codecs

How a type is represented in JSON: read from text, taken from a tree, and turned into a tree.
Reading from text reports the first fault in the order of the text, whether it concerns the text or
the shape; taking from a tree meets faults of shape only.

A dictionary has no order of its own, so there are as many trees for it as its members have orders.
`Codec.Writes` holds of all trees that a value may be written as, and `Codec.toTree` is the one in which
keys increase.

## Main definitions

* `Codec`: the representation of a type.
* `Codec.text`, `Codec.flag`, `Codec.unit`, `Codec.real`, `Codec.uint32` and so on: scalars.
* `Codec.optional`, `Codec.list`, `Codec.dict`: containers.
* `Codec.choice`: enumerations.
* `Codec.json`: any JSON.
* `Codec.parse`, `Codec.render`, `Codec.Renders`: whole documents.
-/

namespace FlowEngine

open Json

/-- The representation of a type in JSON. -/
structure Codec (α : Type) where
  /-- A value at the start of a document whose containers nest no deeper than the budget. -/
  read : Nat → Glyphs → Except Fault (α × Glyphs)
  /-- The value of a tree. -/
  ofTree : Json → Except Fault α
  /-- The tree of a value, where the keys of dictionaries increase. -/
  toTree : α → Json
  /-- The trees that a value may be written as. -/
  Writes : α → Json → Prop := fun a tree => tree = toTree a
  writes_toTree : ∀ a, Writes a (toTree a) := by exact fun _ => rfl
  /-- The value of a record's field that is left out, if it may be. -/
  absent : Option α := none

namespace Codec

variable {α β : Type}

/-- The value of a whole document. -/
def parse (c : Codec α) (s : Glyphs) : Except Fault α := do
  let (a, s) ← c.read depthLimit s
  closeDocument s
  return a

/-- The document of a value, where the keys of dictionaries increase. -/
def render (c : Codec α) (layout : Layout) (a : α) : String := (c.toTree a).render layout

/-- The documents that a value may be written as. -/
def Renders (c : Codec α) (layout : Layout) (a : α) (document : String) : Prop :=
  ∃ tree, c.Writes a tree ∧ document = tree.render layout

theorem renders_render (c : Codec α) (layout : Layout) (a : α) :
    c.Renders layout a (c.render layout a) :=
  ⟨c.toTree a, c.writes_toTree a, rfl⟩

/-- The representation of `α`, used for another type. -/
def imap (c : Codec α) (f : α → β) (g : β → α) : Codec β where
  read := fun budget s => (c.read budget s).map fun (a, s) => (f a, s)
  ofTree := fun json => (c.ofTree json).map f
  toTree := fun b => c.toTree (g b)
  Writes := fun b tree => c.Writes (g b) tree
  writes_toTree := fun b => c.writes_toTree (g b)
  absent := c.absent.map f

/-! ### Scalars -/

/-- A scalar: read from the glyph it starts with, or by `wrongTypeAt` if it cannot start so. -/
def scalar (expected : String) (take : Json → Except Fault α) (starts : Glyph → Bool)
    (toTree : α → Json) : Codec α where
  read := fun _ s =>
    match skipBlanks s with
    | [] => .error (.text .endInValue)
    | g :: s =>
      if starts g then do
        let (json, s) ← readWith none (g :: s)
        return (← take json, s)
      else .error (wrongTypeAt expected (g :: s))
  ofTree := take
  toTree := toTree

/-- A text in a format of its own. -/
def formatted (expected : String) (parse : String → Except String α) (print : α → String) :
    Codec α :=
  scalar expected
    (fun
      | .string s => (parse s).mapError .malformed
      | json => .error (.wrongType (.ofJson json) expected))
    (· == some '"') fun a => .string (print a)

/-- Texts. -/
def text : Codec String := formatted "a string" .ok id

/-- Booleans. -/
def flag : Codec Bool :=
  scalar "a boolean"
    (fun
      | .bool b => .ok b
      | json => .error (.wrongType (.ofJson json) "a boolean"))
    (fun g => g == some 't' || g == some 'f') .bool

/-- The type with one value, which is represented by null. -/
def unit : Codec Unit :=
  scalar "unit"
    (fun
      | .null => .ok ()
      | json => .error (.wrongType (.ofJson json) "unit"))
    (· == some 'n') fun _ => .null

/-- Numbers of any kind. -/
def number (expected : String) (ofNumber : Number → Except Fault α) (toTree : α → Json) :
    Codec α :=
  scalar expected
    (fun
      | .number n => ofNumber n
      | json => .error (.wrongType (.ofJson json) expected))
    startsNumber toTree

/-- Doubles. -/
def real : Codec Float := number "f64" (fun n => .ok n.toFloat) .ofFloat

/-- The single-precision number nearest to an integer. -/
def nearestReal32 (n : Int) : Float32 :=
  let magnitude := n.natAbs.toUInt64.toFloat32
  if n < 0 then -magnitude else magnitude

/-- Single-precision numbers. -/
def real32 : Codec Float32 :=
  number "f32"
    (fun
      | .whole n => .ok (nearestReal32 n)
      | .real x => .ok x.toFloat32)
    fun x => .ofFloat x.toFloat

/-- Integers between `least` and `greatest`, of the type with this name. -/
def whole (name : String) (least greatest : Int) : Codec Int :=
  number name
    (fun
      | .whole n =>
        if least ≤ n ∧ n ≤ greatest then .ok n else .error (.wrongValue (.whole n) name)
      | .real x => .error (.wrongType (.real x) name))
    fun n => .number (.whole n)

/-- Unsigned integers of 8 bits. -/
def uint8 : Codec UInt8 :=
  (whole "u8" 0 255).imap (fun n => UInt8.ofNat n.toNat) fun n => n.toNat

/-- Unsigned integers of 32 bits. -/
def uint32 : Codec UInt32 :=
  (whole "u32" 0 (UInt32.size - 1 : Nat)).imap (fun n => UInt32.ofNat n.toNat) fun n => n.toNat

/-- Unsigned integers of 64 bits, under a name of theirs. -/
def word (name : String) : Codec UInt64 :=
  (whole name 0 (UInt64.size - 1 : Nat)).imap (fun n => UInt64.ofNat n.toNat) fun n => n.toNat

/-- Unsigned integers of 64 bits. -/
def uint64 : Codec UInt64 := word "u64"

/-- Sizes, which are unsigned integers of 64 bits. -/
def size : Codec UInt64 := word "usize"

/-- Signed integers of 32 bits. -/
def int32 : Codec Int32 :=
  (whole "i32" Int32.minValue.toInt Int32.maxValue.toInt).imap Int32.ofInt Int32.toInt

/-- Signed integers of 64 bits. -/
def int64 : Codec Int64 :=
  (whole "i64" Int64.minValue.toInt Int64.maxValue.toInt).imap Int64.ofInt Int64.toInt

/-- Any JSON, with sorted members. -/
def json : Codec Json where
  read := fun budget s => (Json.read budget s).map fun (json, s) => (json.normalize, s)
  ofTree := fun json => .ok json.normalize
  toTree := id

/-! ### Containers -/

/-- A value or null. A field that holds one may be left out. -/
def optional (c : Codec α) : Codec (Option α) where
  read := fun budget s =>
    match skipBlanks s with
    | some 'n' :: s => (expectWord ['u', 'l', 'l'] s).map fun s => (none, s)
    | s => (c.read budget s).map fun (a, s) => (some a, s)
  ofTree := fun
    | .null => .ok none
    | json => (c.ofTree json).map some
  toTree := fun
    | none => .null
    | some a => c.toTree a
  Writes := fun
    | none, tree => tree = .null
    | some a, tree => c.Writes a tree
  writes_toTree := fun
    | none => rfl
    | some a => c.writes_toTree a
  absent := some none

/-- Sequences. -/
def list (c : Codec α) : Codec (List α) where
  read := fun budget s =>
    match skipBlanks s with
    | [] => .error (.text .endInValue)
    | some '[' :: s =>
      match budget with
      | 0 => .error (.text .tooDeep)
      | budget + 1 => do
        let (items, s) ← readItems (c.read budget) s
        return (items, ← closeList s)
    | s => .error (wrongTypeAt "a sequence" s)
  ofTree := fun
    | .array items => items.mapM c.ofTree
    | json => .error (.wrongType (.ofJson json) "a sequence")
  toTree := fun items => .array (items.map c.toTree)
  Writes := fun items tree => ∃ written : List (α × Json),
    written.map (·.1) = items ∧ (∀ x ∈ written, c.Writes x.1 x.2) ∧ tree = .array (written.map (·.2))
  writes_toTree := fun items => by
    refine ⟨items.map fun a => (a, c.toTree a), ?_, ?_, ?_⟩
    · simp [Function.comp_def]
    · exact List.forall_mem_map.mpr fun a _ => c.writes_toTree a
    · simp

/-- Dictionaries. Members are written in any order. Of several members with one key the last one
counts when they are read. -/
def dict (c : Codec α) : Codec (Dict α) where
  read := fun budget s =>
    match skipBlanks s with
    | [] => .error (.text .endInValue)
    | some '\x7b' :: s =>
      match budget with
      | 0 => .error (.text .tooDeep)
      | budget + 1 => do
        let (members, s) ← readMembers (c.read budget) s
        return (.ofList members, ← closeObject s)
    | s => .error (wrongTypeAt "a map" s)
  ofTree := fun
    | .object members => do
      return .ofList (← members.mapM fun m => (c.ofTree m.2).map fun a => (m.1, a))
    | json => .error (.wrongType (.ofJson json) "a map")
  toTree := fun d => .object (d.entries.map fun e => (e.1, c.toTree e.2))
  Writes := fun d tree => ∃ written : List (String × α × Json),
    (written.map fun m => (m.1, m.2.1)).Perm d.entries ∧ (∀ m ∈ written, c.Writes m.2.1 m.2.2) ∧
      tree = .object (written.map fun m => (m.1, m.2.2))
  writes_toTree := fun d => by
    refine ⟨d.entries.map fun e => (e.1, e.2, c.toTree e.2), ?_, ?_, ?_⟩
    · simp [Function.comp_def]
    · exact List.forall_mem_map.mpr fun e _ => c.writes_toTree e.2
    · simp

/-! ### Enumerations -/

/-- The value of a name. -/
def variant? (variants : List (String × α)) (name : String) : Except Fault α :=
  match variants.lookup name with
  | some a => .ok a
  | none => .error (.unknownVariant name (variants.map (·.1)))

/-- A name. -/
def readVariant (variants : List (String × α)) (s : Glyphs) : Except Fault (α × Glyphs) :=
  match skipBlanks s with
  | [] => .error (.text .endInValue)
  | some '"' :: s => do
    let (name, s) ← readString s
    return (← variant? variants name, s)
  | s => .error (wrongTypeAt "variant identifier" s)

/-- A name as the key of an object with one member. -/
def readVariantKey (variants : List (String × α)) (s : Glyphs) : Except Fault (α × Glyphs) :=
  match skipBlanks s with
  | [] => .error (.text .endInObject)
  | some '"' :: s => readVariant variants (some '"' :: s)
  | some '\x7d' :: _ => .error (.text .expectedValue)
  | _ => .error (.text .keyNotString)

/-- What follows a value in an object with one member. -/
def closeSingle (s : Glyphs) : Except Fault Glyphs :=
  match skipBlanks s with
  | [] => .error (.text .endInObject)
  | some '\x7d' :: s => .ok s
  | _ => .error (.text .expectedValue)

/-- A variant without content: its name, or an object that maps its name to null. -/
def readChoice (variants : List (String × α)) (budget : Nat) (s : Glyphs) :
    Except Fault (α × Glyphs) :=
  match skipBlanks s with
  | [] => .error (.text .endInValue)
  | some '"' :: s => readVariant variants (some '"' :: s)
  | some '\x7b' :: s =>
    match budget with
    | 0 => .error (.text .tooDeep)
    | budget + 1 => do
      let (a, s) ← readVariantKey variants s
      let s ← readColon s
      let (_, s) ← unit.read budget s
      return (a, ← closeSingle s)
  | _ => .error (.text .expectedValue)

/-- A variant without content from a tree. -/
def choiceOfTree (variants : List (String × α)) (content : Json → Except Fault Unit) :
    Json → Except Fault α
  | .string name => variant? variants name
  | .object [(name, json)] => do
    let a ← variant? variants name
    content json
    return a
  | .object _ => .error (.wrongValue .map "map with a single key")
  | json => .error (.wrongType (.ofJson json) "string or map")

/-- An enumeration with the given names. -/
def choice (variants : List (String × α)) (name : α → String) : Codec α where
  read := readChoice variants
  ofTree := choiceOfTree variants unit.ofTree
  toTree := fun a => .string (name a)

end Codec

end FlowEngine
