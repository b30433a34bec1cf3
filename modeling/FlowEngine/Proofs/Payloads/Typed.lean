import FlowEngine.Node.Definition
import FlowEngine.Proofs.Payloads.Kept

/-!
# Payloads from one typed node to the next

A node with typed payloads encodes what it gives back, and the next one decodes it. Whatever the type is,
the payload that arrives is the one that was sent, or the type mismatch is reported, with one exception:
dynamic values have a single kind of number, the double, so an integer of 64 bits that is no double is
replaced by the nearest one that is. Integers of 32 bits, and all up to `2 ^ 53` in magnitude, are doubles.
Doubles themselves have to be finite, and come back as equal numbers, where negative zero equals zero.

The types are those that are built from texts, booleans, numbers and dynamic values by options, sequences,
dictionaries and records. An option directly inside an option is none of them, since both levels would be
null.

## Main definitions

* `Codec.Typed`, `Fields.Typed`: the types of payloads, with how their payloads come back.

## Main results

* `TypedNode.accept_release`: what one node releases, the next one accepts or refuses.
-/

namespace FlowEngine

open Json Value

mutual

/-- The representations of types of payloads. For each of them it is said whether its payloads may be null,
which of them are finite, and how a payload that comes back is related to the one that was sent. -/
inductive Codec.Typed : {α : Type} → Bool → Codec α → (α → Prop) → (α → α → Prop) → Prop
  | text : Codec.Typed false .text (fun _ => True) Eq
  | flag : Codec.Typed false .flag (fun _ => True) Eq
  | int32 : Codec.Typed false .int32 (fun _ => True) Eq
  | int64 : Codec.Typed false .int64 (fun _ => True) fun a b => Binary.Rounded a.toInt b.toInt
  | uint32 : Codec.Typed false .uint32 (fun _ => True) Eq
  | uint64 : Codec.Typed false .uint64 (fun _ => True) fun a b => Binary.Rounded a.toNat b.toNat
  | size : Codec.Typed false (Codec.size.imap Size.mk Size.val) (fun _ => True)
      fun a b => Binary.Rounded a.val.toNat b.val.toNat
  | real : Codec.Typed false .real (fun x => Binary.isFinite x) fun x y => (x == y) = true
  | value : Codec.Typed false .value (fun v => v.Canonical ∧ ∀ x ∈ v.numbers, Binary.isFinite x)
      fun v w => (v == w) = true
  | optional {α : Type} {c : Codec α} {finite : α → Prop} {near : α → α → Prop}
      (h : Codec.Typed false c finite near) :
      Codec.Typed true (.optional c) (fun o => ∀ a ∈ o, finite a) (Option.Rel near)
  | list {α : Type} {nullable : Bool} {c : Codec α} {finite : α → Prop} {near : α → α → Prop}
      (h : Codec.Typed nullable c finite near) :
      Codec.Typed false (.list c) (fun items => ∀ a ∈ items, finite a) (List.Forall₂ near)
  | dict {α : Type} {nullable : Bool} {c : Codec α} {finite : α → Prop} {near : α → α → Prop}
      (h : Codec.Typed nullable c finite near) :
      Codec.Typed false (.dict c) (fun d => ∀ e ∈ d.entries, finite e.2)
        fun d d' => List.Forall₂ (fun e e' => e.1 = e'.1 ∧ near e.2 e'.2) d.entries d'.entries
  | record {α τ σ : Type} {name : String} {fields : Fields τ σ} {build : τ → α} {parts : α → τ}
      {finite : τ → Prop} {near : τ → τ → Prop} (h : Fields.Typed fields finite near)
      (hparts : ∀ values, parts (build values) = values) :
      Codec.Typed false (.record name fields build parts) (fun a => finite (parts a))
        fun a b => near (parts a) (parts b)

/-- Fields of types of payloads, under different names. -/
inductive Fields.Typed : {τ σ : Type} → Fields τ σ → (τ → Prop) → (τ → τ → Prop) → Prop
  | nil : Fields.Typed .nil (fun _ => True) fun _ _ => True
  | cons {α τ σ : Type} {nullable : Bool} {field : Field α} {rest : Fields τ σ} {finite : α → Prop}
      {near : α → α → Prop} {finites : τ → Prop} {nears : τ → τ → Prop}
      (h : Codec.Typed nullable field.codec finite near) (hrest : Fields.Typed rest finites nears)
      (hname : field.name ∉ rest.names) :
      Fields.Typed (.cons field rest) (fun values => finite values.1 ∧ finites values.2)
        fun values values' => near values.1 values'.1 ∧ nears values.2 values'.2

end

/-! ## What comes back -/

mutual

/-- Payloads of all types are kept, by induction over the type. -/
theorem Codec.Typed.keeps : {α : Type} → {nullable : Bool} → {c : Codec α} → {finite : α → Prop} →
    {near : α → α → Prop} → c.Typed nullable finite near → c.Keeps nullable finite near
  | _, _, _, _, _, .text => Codec.keeps_text
  | _, _, _, _, _, .flag => Codec.keeps_flag
  | _, _, _, _, _, .int32 => Codec.keeps_int32
  | _, _, _, _, _, .int64 => Codec.keeps_int64
  | _, _, _, _, _, .uint32 => Codec.keeps_uint32
  | _, _, _, _, _, .uint64 => Codec.keeps_word "u64"
  | _, _, _, _, _, .size => Codec.keeps_size
  | _, _, _, _, _, .real => Codec.keeps_real
  | _, _, _, _, _, .value => Codec.keeps_value
  | _, _, _, _, _, .optional h => h.keeps.optional
  | _, _, _, _, _, .list h => h.keeps.list
  | _, _, _, _, _, .dict h => h.keeps.dict
  | _, _, _, _, _, .record h hparts => h.keeps.record hparts

/-- Fields are kept if their types are. -/
theorem Fields.Typed.keeps : {τ σ : Type} → {fields : Fields τ σ} → {finite : τ → Prop} →
    {near : τ → τ → Prop} → fields.Typed finite near → fields.Keeps finite near
  | _, _, _, _, _, .nil => Fields.keeps_nil
  | _, _, _, _, _, .cons h hrest hname => hrest.keeps.cons h.keeps hname

end

namespace TypedNode

variable {α : Type} [Payload α]

/-- **Payloads arrive or are refused.** What one node releases reaches the next one as it was, up to the
rounding of integers of 64 bits to doubles, in an envelope that says the same otherwise; or a type mismatch
is reported. -/
theorem accept_release {nullable : Bool} {finite : α → Prop} {near : α → α → Prop}
    (h : (Payload.codec : Codec α).Typed nullable finite near) (e : Envelope α) (he : finite e.data)
    (supply : Supply) :
    let released := (release e supply).1
    (∃ data issue, near e.data data ∧ Value.decode α (Value.encode e.data) = .ok data ∧
      accept released = .ok issue ∧
        ∀ later, (issue later).1.toMessage = e.toMessage.derive data e.trace) ∨
    ∃ shape detail,
      Value.decode α (Value.encode e.data) = .error (.typeMismatch (Payload.typeName α) shape detail) ∧
      accept (ι := α) released = .error (.typeMismatch (Payload.typeName α) shape detail) := by
  intro released
  have hkept := h.keeps.gives e.data he
  have haccept : accept released =
      (Value.decode α (Value.encode e.data)).map fun data => released.derive data released.trace := rfl
  have hdecode : Value.decode α (Value.encode e.data) =
      ((Payload.codec : Codec α).ofTree (carried ((Payload.codec : Codec α).toTree e.data))).mapError
        fun fault => .typeMismatch (Payload.typeName α) (Value.encode e.data).dataType.name fault.message := rfl
  cases hread : (Payload.codec : Codec α).ofTree (carried ((Payload.codec : Codec α).toTree e.data)) with
  | ok data =>
    rw [hread] at hdecode
    exact .inl ⟨data, _, hkept data hread, hdecode, by rw [haccept, hdecode]; rfl, fun _ => rfl⟩
  | error fault =>
    rw [hread] at hdecode
    exact .inr ⟨_, _, hdecode, by rw [haccept, hdecode]; rfl⟩

/-- An envelope with an integer that needs more bits than a double has. -/
def wide : Envelope (List (Option UInt64)) :=
  { Message.new [some 9007199254740993, none] (.start "agent" "run" "node") with
    id := .ofNat 0
    issuedAt := default }

theorem accept_release_wide :
    let released := (release wide ⟨1, default⟩).1
    ∃ (items : List (Option UInt64)) (issue : Issuing (Envelope (List (Option UInt64)))),
      List.Forall₂ (Option.Rel fun (a b : UInt64) => Binary.Rounded a.toNat b.toNat) wide.data items ∧
      accept released = .ok issue ∧
        ∀ later, (issue later).1.toMessage = wide.toMessage.derive items wide.trace := by
  intro released
  have haccepted : (accept (ι := List (Option UInt64)) released).isOk := by
    decide +kernel
  rcases accept_release (.list (.optional .uint64)) wide (fun _ _ _ _ => trivial) ⟨1, default⟩ with
    ⟨items, issue, hnear, -, haccept, hissue⟩ | ⟨shape, detail, -, hrefused⟩
  · exact ⟨items, issue, hnear, haccept, hissue⟩
  · rw [hrefused] at haccepted
    cases haccepted

/-- The first integer that is no double arrives as the one before it. -/
theorem decode_encode_changed :
    Value.decode UInt64 (Value.encode (9007199254740993 : UInt64)) = .ok 9007199254740992 ∧
      (9007199254740992 : UInt64) ≠ 9007199254740993 := by
  decide +kernel

end TypedNode

end FlowEngine
