import FlowEngine.Codec.Basic
import FlowEngine.Value.Plain

/-!
# Values as tagged JSON

The lossless representation of a value: an object with the kind of the value under `type` and its
content under `value`; null has no content. Reading also accepts the two members in the other
order, further members between them, and the sequence of kind and content.

A content that comes before its kind is kept as a tree until the kind is known. Taking a value from
such a kept tree is slightly more lenient than taking it from any other: `Origin` tells them apart.

## Main definitions

* `Value.Kind`: the kinds of values, with their names.
* `Value.toTagged`, `Value.readTagged`, `Value.ofTagged`: writing, and reading from text and tree.
* `Value.Writes`: the trees that a value may be written as.
* `Codec.value`: the tagged representation.
* `Codec.plain`: the representation as plain JSON.
-/

namespace FlowEngine

open Json

namespace Value

/-- The kinds of values. -/
inductive Kind where
  | null
  | bool
  | number
  | string
  | bytes
  | array
  | object
  deriving DecidableEq, Repr

/-- The kind of a value. -/
def kind : Value → Kind
  | .null => .null
  | .bool _ => .bool
  | .number _ => .number
  | .string _ => .string
  | .bytes _ => .bytes
  | .array _ => .array
  | .object _ => .object

/-- The name of a kind. -/
def Kind.name : Kind → String
  | .null => "Null"
  | .bool => "Bool"
  | .number => "Number"
  | .string => "String"
  | .bytes => "Bytes"
  | .array => "Array"
  | .object => "Object"

/-- All kinds, in order, under their names. -/
def kinds : List (String × Kind) :=
  [Kind.null, .bool, .number, .string, .bytes, .array, .object].map fun k => (k.name, k)

/-- The member that holds the kind. -/
def kindKey : String := "type"

/-- The member that holds the content. -/
def contentKey : String := "value"

/-- How a message names the type. -/
def taggedName : String := "adjacently tagged enum Value"

/-- How a message names the content of null. -/
def nullName : String := "unit variant Value::Null"

/-! ### Writing -/

/-- An object with a kind and a content. -/
def tagged (k : Kind) (content : Json) : Json :=
  .object [(kindKey, .string k.name), (contentKey, content)]

mutual

/-- The tagged tree of a value, where the keys of objects increase. -/
def toTagged : Value → Json
  | .null => .object [(kindKey, .string Kind.null.name)]
  | .bool b => tagged .bool (.bool b)
  | .number x => tagged .number (.ofFloat x)
  | .string s => tagged .string (.string s)
  | .bytes b => tagged .bytes (.array (b.map fun n => .number (.whole n.toNat)))
  | .array items => tagged .array (.array (itemsToTagged items))
  | .object members => tagged .object (.object (membersToTagged members))

/-- The tagged tree of every item. -/
def itemsToTagged : List Value → List Json
  | [] => []
  | item :: items => toTagged item :: itemsToTagged items

/-- The tagged tree of every member. -/
def membersToTagged : List (String × Value) → List (String × Json)
  | [] => []
  | (key, value) :: members => (key, toTagged value) :: membersToTagged members

end

/-- The trees that a value may be written as. Kind and content have their places, and the members of an
object come in any order. -/
inductive Writes : Value → Json → Prop
  | null : Writes .null (toTagged .null)
  | bool (b : Bool) : Writes (.bool b) (toTagged (.bool b))
  | number (x : Float) : Writes (.number x) (toTagged (.number x))
  | string (s : String) : Writes (.string s) (toTagged (.string s))
  | bytes (b : List UInt8) : Writes (.bytes b) (toTagged (.bytes b))
  | array {written : List (Value × Json)} (h : ∀ x ∈ written, Writes x.1 x.2) :
    Writes (.array (written.map (·.1))) (tagged .array (.array (written.map (·.2))))
  | object {members : List (String × Value)} {written : List (String × Value × Json)}
    (hperm : (written.map fun m => (m.1, m.2.1)).Perm members) (h : ∀ m ∈ written, Writes m.2.1 m.2.2) :
    Writes (.object members) (tagged .object (.object (written.map fun m => (m.1, m.2.2))))

theorem itemsToTagged_eq_map (items : List Value) : itemsToTagged items = items.map toTagged := by
  induction items with
  | nil => rfl
  | cons item items ih => rw [itemsToTagged, ih, List.map_cons]

theorem membersToTagged_eq_map (members : List (String × Value)) :
    membersToTagged members = members.map fun m => (m.1, toTagged m.2) := by
  induction members with
  | nil => rfl
  | cons m members ih =>
    obtain ⟨key, value⟩ := m
    rw [membersToTagged, ih, List.map_cons]

theorem writes_toTagged (v : Value) : Writes v (toTagged v) := by
  induction v using Value.induction with
  | null => exact .null
  | bool b => exact .bool b
  | number x => exact .number x
  | string s => exact .string s
  | bytes b => exact .bytes b
  | array items ih =>
    have h := @Writes.array (items.map fun v => (v, toTagged v)) (List.forall_mem_map.mpr ih)
    rw [toTagged, itemsToTagged_eq_map]
    simpa [Function.comp_def] using h
  | object members ih =>
    have hperm : ((members.map fun m => (m.1, m.2, toTagged m.2)).map fun m => (m.1, m.2.1)).Perm members := by
      simp [Function.comp_def]
    have h := Writes.object hperm (List.forall_mem_map.mpr ih)
    rw [toTagged, membersToTagged_eq_map]
    simpa [Function.comp_def] using h

/-! ### Taking from trees -/

/-- Where a tree comes from. -/
inductive Origin where
  /-- A document that has been read as a whole. -/
  | document
  /-- A content that was kept until its kind was known. -/
  | kept
  deriving DecidableEq

/-- The content that null has in a variant's object. -/
def Origin.unit : Origin → Json → Except Fault Unit
  | .kept, .object [] => .ok ()
  | _, json => Codec.unit.ofTree json

/-- A kind that is written as a variant. -/
def Origin.kind (origin : Origin) (json : Json) : Except Fault Kind :=
  Codec.choiceOfTree kinds origin.unit json

/-- A kind at the head of a sequence. Kept content may give it by its number. -/
def Origin.leadingKind : Origin → Json → Except Fault Kind
  | _, .string name => Codec.variant? kinds name
  | .kept, .number (.whole n) =>
    if n < 0 then .error (.wrongType (.whole n) "variant identifier")
    else
      match kinds[n.toNat]? with
      | some (_, k) => .ok k
      | none => .error (.wrongValue (.whole n) "variant index 0 <= i < 7")
  | _, json => .error (.wrongType (.ofJson json) "variant identifier")

/-- How a message names the length of a sequence that holds more than kind and content. -/
def Origin.expectedLength : Origin → String
  | .document => "fewer elements in array"
  | .kept => "2 elements in sequence"

/-- What a tree gives as a whole value, and as the content of a kind. -/
abbrev Reading := Origin → Option Kind → Except Fault Value

/-- A member that has a meaning to tagged values. -/
def relevant (key : String) : Bool := key == kindKey || key == contentKey

/-- The fault of a member that comes after kind and content. -/
def checkEnd {α : Type} : List (String × α) → Except Fault Unit
  | [] => .ok ()
  | (key, _) :: _ => .error (.duplicateField key)

/-- A value from the members of an object that have a meaning to tagged values. -/
def ofParts (origin : Origin) : List (String × Json × Reading) → Except Fault Value
  | [] => .error (.missingField kindKey)
  | (key, json, reading) :: rest =>
    if key = kindKey then do
      let k ← origin.kind json
      match rest with
      | [] => if k = .null then return .null else throw (.missingField contentKey)
      | (key, _, reading) :: rest =>
        if key = kindKey then throw (.duplicateField kindKey)
        else
          let v ← reading origin (some k)
          checkEnd rest
          return v
    else
      match rest with
      | [] => .error (.missingField kindKey)
      | (key, json, _) :: rest =>
        if key = kindKey then do
          let k ← origin.kind json
          let v ← reading .kept (some k)
          checkEnd rest
          return v
        else .error (.duplicateField contentKey)

/-- A value from the items of a sequence. -/
def ofPair (origin : Origin) : List (Json × Reading) → Except Fault Value
  | [] => .error (.wrongLength 0 taggedName)
  | (json, _) :: rest => do
    let k ← origin.leadingKind json
    match rest with
    | [] => throw (.wrongLength 1 taggedName)
    | (_, reading) :: rest =>
      let v ← reading origin (some k)
      if rest.isEmpty then return v
      else throw (.wrongLength (rest.length + 2) origin.expectedLength)

/-- A content that is no container. -/
def scalarContent (json : Json) : Kind → Except Fault Value
  | .null =>
    match json with
    | .null => .ok .null
    | json => .error (.wrongType (.ofJson json) nullName)
  | .bool => (Codec.flag.ofTree json).map .bool
  | .number => (Codec.real.ofTree json).map .number
  | .string => (Codec.text.ofTree json).map .string
  | .bytes => ((Codec.list Codec.uint8).ofTree json).map .bytes
  | .array => .error (.wrongType (.ofJson json) "a sequence")
  | .object => .error (.wrongType (.ofJson json) "a map")

mutual

/-- What a tree gives as a whole value, or as the content of a kind. -/
def ofTagged : Json → Reading
  | .array items, origin, as =>
    match as with
    | none => ofPair origin (itemReadings items)
    | some .array => ((itemReadings items).mapM fun (r : Json × Reading) => r.2 origin none).map .array
    | some k => scalarContent (.array items) k
  | .object members, origin, as =>
    match as with
    | none => ofParts origin ((memberReadings members).filter fun m => relevant m.1)
    | some .object =>
      ((memberReadings members).mapM fun (m : String × Json × Reading) =>
        (m.2.2 origin none).map fun v => (m.1, v)).map ofMembers
    | some k => scalarContent (.object members) k
  | json, _, as =>
    match as with
    | none => .error (.wrongType (.ofJson json) taggedName)
    | some k => scalarContent json k

/-- What every item gives. -/
def itemReadings : List Json → List (Json × Reading)
  | [] => []
  | item :: items => (item, ofTagged item) :: itemReadings items

/-- What the value of every member gives. -/
def memberReadings : List (String × Json) → List (String × Json × Reading)
  | [] => []
  | (key, value) :: members => (key, value, ofTagged value) :: memberReadings members

end

/-! ### Reading from text -/

/-- A reader of a value at the start of a document. -/
abbrev Reader := Glyphs → Except Fault (Value × Glyphs)

/-- The next member with a meaning to tagged values, past its key. -/
def nextPart : Nat → Bool → Glyphs → Except Fault (Option String × Glyphs)
  | 0, _, _ => .error (.text .endInObject)
  | fuel + 1, first, s => do
    match ← nextKey first s with
    | .done s => return (none, s)
    | .more s =>
      let (key, s) ← readString s
      if relevant key then return (some key, s)
      else nextPart fuel false (← skipValue (← readColon s))

/-- Makes sure that neither kind nor content come again. -/
def expectEnd (s : Glyphs) : Except Fault Glyphs := do
  match ← nextPart (s.length + 1) false s with
  | (none, s) => return s
  | (some key, _) => throw (.duplicateField key)

/-- The content of null. -/
def readNullContent (mayEnter : Bool) (s : Glyphs) : Except Fault (Value × Glyphs) :=
  match skipBlanks s with
  | [] => .error (.text .endInValue)
  | some 'n' :: s => (expectWord ['u', 'l', 'l'] s).map fun s => (.null, s)
  | g :: s =>
    if (g = some '[' || g = some '\x7b') && !mayEnter then .error (.text .tooDeep)
    else .error (wrongTypeAt nullName (g :: s))

/-- The values inside a content. -/
def inside (nested : Option Reader) : Codec Value where
  read := fun _ s => (nested.map fun read => read s).getD (.error (.text .tooDeep))
  ofTree := fun json => ofTagged json .document none
  toTree := toTagged
  Writes := Writes
  writes_toTree := writes_toTagged

/-- A content of a kind, where `nested` reads the values inside, if containers may be entered. -/
def readContent (nested : Option Reader) (k : Kind) (s : Glyphs) :
    Except Fault (Value × Glyphs) :=
  let budget := if nested.isSome then 1 else 0
  match k with
  | .null => readNullContent nested.isSome s
  | .bool => (Codec.flag.read budget s).map fun (b, s) => (.bool b, s)
  | .number => (Codec.real.read budget s).map fun (x, s) => (.number x, s)
  | .string => (Codec.text.read budget s).map fun (text, s) => (.string text, s)
  | .bytes => ((Codec.list Codec.uint8).read budget s).map fun (b, s) => (.bytes b, s)
  | .array => ((Codec.list (inside nested)).read budget s).map fun (items, s) => (.array items, s)
  | .object => ((Codec.dict (inside nested)).read budget s).map fun (d, s) => (.ofDict d, s)

/-- The members of an object up to and without its closing brace. -/
def readParts (budget : Nat) (nested : Option Reader) (s : Glyphs) :
    Except Fault (Value × Glyphs) := do
  match ← nextPart (s.length + 1) true s with
  | (none, _) => throw (.missingField kindKey)
  | (some key, s) =>
    let s ← readColon s
    if key = kindKey then
      let (k, s) ← Codec.readChoice kinds budget s
      match ← nextPart (s.length + 1) false s with
      | (none, s) => if k = .null then return (.null, s) else throw (.missingField contentKey)
      | (some key, s) =>
        if key = kindKey then throw (.duplicateField kindKey)
        else
          let (v, s) ← readContent nested k (← readColon s)
          return (v, ← expectEnd s)
    else
      let (json, s) ← Json.read budget s
      match ← nextPart (s.length + 1) false s with
      | (none, _) => throw (.missingField kindKey)
      | (some key, s) =>
        if key = kindKey then
          let (k, s) ← Codec.readChoice kinds budget (← readColon s)
          let v ← ofTagged json .kept (some k)
          return (v, ← expectEnd s)
        else throw (.duplicateField contentKey)

/-- The items of a sequence up to and without its closing bracket. -/
def readPair (nested : Option Reader) (s : Glyphs) : Except Fault (Value × Glyphs) := do
  match ← nextItem true s with
  | .done _ => throw (.wrongLength 0 taggedName)
  | .more s =>
    let (k, s) ← Codec.readVariant kinds s
    match ← nextItem false s with
    | .done _ => throw (.wrongLength 1 taggedName)
    | .more s => readContent nested k s

/-- A tagged value in a container that may hold others nested as deeply as `budget` says, which
`nested` reads if content may be a container at all. -/
def readTaggedWith (budget : Nat) (nested : Option Reader) (s : Glyphs) :
    Except Fault (Value × Glyphs) :=
  match skipBlanks s with
  | [] => .error (.text .endInValue)
  | some '\x7b' :: s => do
    let (v, s) ← readParts budget nested s
    return (v, ← closeObject s)
  | some '[' :: s => do
    let (v, s) ← readPair nested s
    return (v, ← closeList s)
  | s => .error (wrongTypeAt taggedName s)

/-- A tagged value that cannot be one, because no container may be entered. -/
def readTaggedTooDeep (s : Glyphs) : Except Fault (Value × Glyphs) :=
  match skipBlanks s with
  | [] => .error (.text .endInValue)
  | some '\x7b' :: _ | some '[' :: _ => .error (.text .tooDeep)
  | s => .error (wrongTypeAt taggedName s)

/-- A tagged value. It takes one container for itself and one for the items or members inside. -/
def readTagged : Nat → Reader
  | 0 => readTaggedTooDeep
  | 1 => readTaggedWith 0 none
  | budget + 2 => readTaggedWith (budget + 1) (some (readTagged budget))

end Value

/-- Values in their tagged representation. -/
def Codec.value : Codec Value where
  read := Value.readTagged
  ofTree := fun json => Value.ofTagged json .document none
  toTree := Value.toTagged
  Writes := Value.Writes
  writes_toTree := Value.writes_toTagged

/-- Values as plain JSON. -/
def Codec.plain : Codec Value where
  read := fun budget s => (Codec.json.read budget s).map fun (json, s) => (Value.ofJson json, s)
  ofTree := fun json => .ok (Value.ofJson json)
  toTree := Value.toJson

end FlowEngine
