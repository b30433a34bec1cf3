import FlowEngine.Platform.Call
import FlowEngine.Proofs.Payloads.Kept
import FlowEngine.Proofs.Wire.Moments
import FlowEngine.Proofs.Wire.Trees

/-!
# What plain JSON keeps

Plain JSON has neither bytes nor infinities nor NaN, so a value that has some of them inside does not come
back from it as it was. `Value.norm` says what comes back instead, and plain values are those that it does
not change. Only the sign of zero is lost besides: a number comes back as an equal one.

The same holds of the text. A value's tree has its members sorted, and every number in it is either an
integer that has 63 bits, whose text is its own, or a finite double. So the tree is read back as it is, and
it is also the tree of the value that comes back: this makes the codec faithful on that value, and with it
the requests that start called runs.

## Main definitions

* `Value.isPlain`: no bytes and no numbers but finite ones inside.
* `Value.norm`: the plain value that stands for a value.
* `TriggerRequest.received`: what arrives of a request.

## Main results

* `Value.norm_of_isPlain`, `Value.isPlain_norm`: plain values are those that stay.
* `Value.ofJson_toJson`: what comes back is the plain value.
* `Codec.faithful_plain`: plain values are read back.
* `plain_json_normalizes`: a called run starts from the plain value of what it was called with.
-/

namespace FlowEngine

open Json

namespace Value

/-! ## Plain values -/

mutual

/-- Whether a value has no bytes inside, and no numbers but finite ones. -/
def isPlain : Value → Bool
  | .null | .bool _ | .string _ => true
  | .number x => Binary.isFinite x
  | .bytes _ => false
  | .array items => allPlain items
  | .object members => allPlainMembers members

/-- Whether all items are plain. -/
def allPlain : List Value → Bool
  | [] => true
  | item :: items => isPlain item && allPlain items

/-- Whether the values of all members are plain. -/
def allPlainMembers : List (String × Value) → Bool
  | [] => true
  | (_, value) :: members => isPlain value && allPlainMembers members

end

theorem isPlain_array {items : List Value} : (array items).isPlain ↔ ∀ v ∈ items, v.isPlain := by
  rw [isPlain]
  induction items with
  | nil => simp [allPlain]
  | cons item items ih => rw [allPlain, Bool.and_eq_true, ih, List.forall_mem_cons]

theorem isPlain_object {members : List (String × Value)} :
    (object members).isPlain ↔ ∀ m ∈ members, m.2.isPlain := by
  rw [isPlain]
  induction members with
  | nil => simp [allPlainMembers]
  | cons m members ih =>
    obtain ⟨key, value⟩ := m
    rw [allPlainMembers, Bool.and_eq_true, ih, List.forall_mem_cons]

mutual

/-- The plain value that stands for a value: bytes become the array of their numbers, and numbers that are
not finite become null. -/
def norm : Value → Value
  | .null => .null
  | .bool b => .bool b
  | .number x => if Binary.isFinite x then .number x else .null
  | .string s => .string s
  | .bytes b => .array (b.map fun n => .ofNat n.toNat)
  | .array items => .array (normItems items)
  | .object members => .object (normMembers members)

/-- The plain values of items. -/
def normItems : List Value → List Value
  | [] => []
  | item :: items => norm item :: normItems items

/-- The plain values of members. -/
def normMembers : List (String × Value) → List (String × Value)
  | [] => []
  | (key, value) :: members => (key, norm value) :: normMembers members

end

theorem norm_array (items : List Value) : (array items).norm = .array (items.map norm) := by
  rw [norm]
  induction items with
  | nil => rfl
  | cons item items ih => rw [normItems, array.inj ih, List.map_cons]

theorem norm_object (members : List (String × Value)) :
    (object members).norm = .object (members.map fun m => (m.1, m.2.norm)) := by
  rw [norm]
  induction members with
  | nil => rfl
  | cons m members ih =>
    obtain ⟨key, value⟩ := m
    rw [normMembers, object.inj ih, List.map_cons]

theorem isFinite_toNat (n : UInt8) : Binary.isFinite (Float.ofNat n.toNat) :=
  Binary.isFinite_ofNat (Nat.lt_trans n.toNat_lt (by decide))

theorem isPlain_norm (v : Value) : v.norm.isPlain := by
  induction v using Value.induction with
  | null | bool b | string s => rfl
  | number x =>
    rw [norm]
    split
    · assumption
    · rfl
  | bytes b =>
    rw [norm, isPlain_array, List.forall_mem_map]
    exact fun n _ => isFinite_toNat n
  | array items ih =>
    rw [norm_array, isPlain_array, List.forall_mem_map]
    exact ih
  | object members ih =>
    rw [norm_object, isPlain_object, List.forall_mem_map]
    exact ih

/-- Plain values stay. -/
theorem norm_of_isPlain {v : Value} (h : v.isPlain) : v.norm = v := by
  induction v using Value.induction with
  | null | bool b | string s => rfl
  | number x => exact if_pos h
  | bytes b => cases h
  | array items ih =>
    rw [isPlain_array] at h
    rw [norm_array, List.map_congr_left fun v hv => ih v hv (h v hv), List.map_id']
  | object members ih =>
    rw [isPlain_object] at h
    have hmembers : ∀ m ∈ members, (m.1, m.2.norm) = m := fun m hm => by rw [ih m hm (h m hm)]
    rw [norm_object, List.map_congr_left hmembers, List.map_id']

theorem norm_norm (v : Value) : v.norm.norm = v.norm := norm_of_isPlain v.isPlain_norm

/-! ## Numbers -/

theorem numberToJson_of_int? {x : Float} {n : Int} (hn : Binary.int? x = some n)
    (h : n.natAbs < UInt64.size / 2) : numberToJson x = .number (.whole n) := by
  simp only [numberToJson, hn, if_pos h]

theorem toJson_ofNat (n : UInt8) : (ofNat n.toNat).toJson = .number (.whole n.toNat) := by
  have hlt : n.toNat < 256 := n.toNat_lt
  exact numberToJson_of_int? (Binary.int?_ofNat (by omega)) (Nat.lt_trans hlt (by decide))

/-- A number comes back as an equal one if it is finite, and as null if it is not. -/
theorem ofJson_numberToJson (x : Float) : (ofJson (numberToJson x) == (number x).norm) = true := by
  rw [norm]
  rcases numberToJson_cases x with ⟨n, hn, -, h⟩ | ⟨hx, h⟩ | ⟨hx, h⟩
  · have hx : Binary.isFinite x := Binary.isFinite_of_int? hn
    rw [h, if_pos hx]
    exact Binary.whole_beq_of_int? hx hn
  · rw [h, if_pos hx]
    exact Binary.beq_self hx
  · rw [h, if_neg hx]
    rfl

/-- From then on it does not change any more. -/
theorem carried_numberToJson (x : Float) : carried (numberToJson x) = numberToJson x := by
  rcases numberToJson_cases x with ⟨n, hn, hlt, h⟩ | ⟨-, h⟩ | ⟨-, h⟩
  · rw [h]
    exact numberToJson_of_int? (Binary.int?_whole_of_int? (Binary.isFinite_of_int? hn) hn) hlt
  · rw [h]
    exact h
  · rw [h]
    rfl

/-! ## Trees -/

/-- A value and the plain value that stands for it have the same tree. -/
theorem toJson_norm (v : Value) : v.norm.toJson = v.toJson := by
  induction v using Value.induction with
  | null | bool b | string s => rfl
  | number x =>
    rw [norm]
    split
    · rfl
    · rename_i hx
      rcases numberToJson_cases x with ⟨n, hn, -⟩ | ⟨hx', -⟩ | ⟨-, h⟩
      · exact absurd (Binary.isFinite_of_int? hn) hx
      · exact absurd hx' hx
      · exact h.symm
  | bytes b =>
    rw [norm, toJson, toJson, itemsToJson_eq_map, List.map_map]
    exact congrArg Json.array (List.map_congr_left fun n _ => toJson_ofNat n)
  | array items ih =>
    rw [norm_array, toJson, toJson, itemsToJson_eq_map, itemsToJson_eq_map, List.map_map]
    exact congrArg Json.array (List.map_congr_left ih)
  | object members ih =>
    rw [norm_object, toJson, toJson, membersToJson_eq_map, membersToJson_eq_map, List.map_map]
    exact congrArg Json.object (List.map_congr_left fun m hm => congrArg (m.1, ·) (ih m hm))

/-- What comes back from plain JSON is the plain value. -/
theorem ofJson_toJson {v : Value} (h : v.Canonical) : (ofJson v.toJson == v.norm) = true := by
  induction v using Value.induction with
  | null => rfl
  | bool b => exact beq_self_eq_true b
  | string s => exact beq_self_eq_true s
  | number x => exact ofJson_numberToJson x
  | bytes b =>
    rw [toJson, ofJson, norm, itemsOfJson_eq_map, List.map_map]
    refine sameItems_of_forall₂ (List.forall₂_map_left_iff.mpr (List.forall₂_map_right_iff.mpr ?_))
    exact List.forall₂_same.mpr fun n _ => Binary.beq_self (isFinite_toNat n)
  | array items ih =>
    rw [Canonical, canonicalItems_iff] at h
    rw [toJson, itemsToJson_eq_map, ofJson, itemsOfJson_eq_map, List.map_map, norm_array]
    refine sameItems_of_forall₂ (List.forall₂_map_left_iff.mpr (List.forall₂_map_right_iff.mpr ?_))
    exact List.forall₂_same.mpr fun v hv => ih v hv (h v hv)
  | object members ih =>
    rw [Canonical, canonicalMembers_iff] at h
    obtain ⟨hsorted, hmembers⟩ := h
    have hback : Entries.Sorted (members.map fun m => (m.1, ofJson m.2.toJson)) :=
      hsorted.map_values fun v => ofJson v.toJson
    rw [toJson, membersToJson_eq_map, ofJson, membersOfJson_eq_map, List.map_map, norm_object]
    change (ofMembers (members.map fun m => (m.1, ofJson m.2.toJson)) == _) = true
    rw [ofMembers, hback.normalize_eq]
    refine sameMembers_of_forall₂ (List.forall₂_map_left_iff.mpr (List.forall₂_map_right_iff.mpr ?_))
    exact List.forall₂_same.mpr fun m hm => ⟨rfl, ih m hm (hmembers m hm)⟩

/-- The tree of a value does not change any more on the way through dynamic values. -/
theorem carried_toJson {v : Value} (h : v.Canonical) : carried v.toJson = v.toJson := by
  induction v using Value.induction with
  | null | bool b | string s => rfl
  | number x => exact carried_numberToJson x
  | bytes b =>
    rw [toJson, carried_array, List.map_map]
    exact congrArg Json.array (List.map_congr_left fun n _ => toJson_ofNat n)
  | array items ih =>
    rw [Canonical, canonicalItems_iff] at h
    rw [toJson, itemsToJson_eq_map, carried_array, List.map_map]
    exact congrArg Json.array (List.map_congr_left fun v hv => ih v hv (h v hv))
  | object members ih =>
    rw [Canonical, canonicalMembers_iff] at h
    obtain ⟨hsorted, hmembers⟩ := h
    have htree : Entries.Sorted (members.map fun m => (m.1, m.2.toJson)) :=
      hsorted.map_values toJson
    rw [toJson, membersToJson_eq_map, carried_object_of_sorted htree, List.map_map]
    exact congrArg Json.object
      (List.map_congr_left fun m hm => congrArg (m.1, ·) (ih m hm (hmembers m hm)))

/-- The members in the tree of a value are sorted. -/
theorem normalize_toJson {v : Value} (h : v.Canonical) : v.toJson.normalize = v.toJson := by
  induction v using Value.induction with
  | null | bool b | string s => rfl
  | number x => rcases numberToJson_cases x with ⟨n, -, -, h⟩ | ⟨-, h⟩ | ⟨-, h⟩ <;> rw [toJson, h] <;> rfl
  | bytes b =>
    rw [toJson, Json.normalize, normalizeItems_eq_map, List.map_map]
    rfl
  | array items ih =>
    rw [Canonical, canonicalItems_iff] at h
    rw [toJson, itemsToJson_eq_map, Json.normalize, normalizeItems_eq_map, List.map_map]
    exact congrArg Json.array (List.map_congr_left fun v hv => ih v hv (h v hv))
  | object members ih =>
    rw [Canonical, canonicalMembers_iff] at h
    obtain ⟨hsorted, hmembers⟩ := h
    have htree : Entries.Sorted (members.map fun m => (m.1, m.2.toJson)) :=
      hsorted.map_values toJson
    have hsame : ∀ m ∈ members, (m.1, m.2.toJson.normalize) = (m.1, m.2.toJson) :=
      fun m hm => congrArg (m.1, ·) (ih m hm (hmembers m hm))
    rw [toJson, membersToJson_eq_map, Json.normalize, normalizeMembers_eq_map, List.map_map]
    change Json.object (Entries.normalize (members.map fun m => (m.1, m.2.toJson.normalize))) = _
    rw [List.map_congr_left hsame, htree.normalize_eq]

/-- The texts of the numbers in the tree of a value are theirs. -/
theorem readsAs_toJson {v : Value} (h : ∀ x ∈ v.numbers, Binary.isFinite x → Codec.RealReadsBack x) :
    ∀ n ∈ v.toJson.allNumbers, n.ReadsAs n := by
  induction v using Value.induction with
  | null | bool b | string s => exact fun n hn => absurd hn List.not_mem_nil
  | number x =>
    rw [toJson]
    rcases numberToJson_cases x with ⟨n, -, hlt, hx⟩ | ⟨hfinite, hx⟩ | ⟨-, hx⟩
    · rw [hx, allNumbers, List.forall_mem_singleton]
      exact readsAs_whole hlt
    · rw [hx, allNumbers, List.forall_mem_singleton]
      exact (h x List.mem_cons_self hfinite).readsAs_real
    · rw [hx]
      exact fun n hn => absurd hn List.not_mem_nil
  | bytes b =>
    rw [toJson, forall_mem_allNumbers_array, List.forall_mem_map]
    intro n _
    rw [allNumbers, List.forall_mem_singleton]
    exact readsAs_natural (Nat.lt_trans n.toNat_lt (by decide))
  | array items ih =>
    rw [forall_mem_numbers_array] at h
    rw [toJson, itemsToJson_eq_map, forall_mem_allNumbers_array, List.forall_mem_map]
    exact fun v hv => ih v hv (h v hv)
  | object members ih =>
    rw [forall_mem_numbers_object] at h
    rw [toJson, membersToJson_eq_map, forall_mem_allNumbers_object, List.forall_mem_map]
    exact fun m hm => ih m hm (h m hm)

/-- Equal values have the same shape. -/
theorem dataType_of_beq {v w : Value} (h : (v == w) = true) : v.dataType = w.dataType := by
  cases v <;> cases w <;> first | rfl | cases h

end Value

/-! ## Text -/

open Value

/-- What plain JSON keeps of a value is read back. -/
theorem Codec.faithful_plain {v : Value} (hcanonical : v.Canonical)
    (hreal : ∀ x ∈ v.numbers, Binary.isFinite x → RealReadsBack x) :
    plain.Faithful (ofJson v.toJson) True := by
  intro tree htree budget layout level rest s hrest hs
  obtain rfl : tree = v.toJson := htree.trans (carried_toJson hcanonical)
  have hread := faithful_json (normalize_toJson hcanonical) (readsAs_toJson hreal) _ rfl budget layout level
    rest s hrest hs
  exact hread.map fun x => (ofJson x.1, x.2)

namespace TriggerRequest

/-- What arrives of a request: the data of the call has gone through plain JSON. -/
def received (r : TriggerRequest) : TriggerRequest := { r with callData := ofJson r.callData.toJson }

/-- What has arrived is read back. -/
theorem faithful_received {r : TriggerRequest} (hcanonical : r.callData.Canonical)
    (htime : Timestamp.ofText r.calledAt.text = .ok r.calledAt)
    (hreal : ∀ x ∈ r.callData.numbers, Binary.isFinite x → Codec.RealReadsBack x) :
    Codec.triggerRequest.Faithful r.received True := by
  have hnames : ["callId", "sourceWorkflowId", "sourceRunId", "callData", "callMode", "calledAt"].Nodup := by
    decide
  have hmode : Codec.callMode.Faithful r.callMode True := by
    refine Codec.faithful_choice ?_
    cases r.callMode <;> rfl
  have hmoment : Codec.timestamp.Faithful r.calledAt True := by
    refine Codec.faithful_formatted ?_
    rw [htime]
    rfl
  refine Codec.Faithful.congr (Codec.faithful_record (.cons (Codec.faithful_text r.callId) <|
    .cons (Codec.faithful_text r.sourceWorkflowId) <| .cons (Codec.faithful_text r.sourceRunId) <|
    .cons (Codec.faithful_plain hcanonical hreal) <| .cons hmode <| .cons hmoment .nil) hnames rfl) ?_
  simp

/-- A request and what arrives of it have the same document. -/
theorem toTree_received {r : TriggerRequest} (h : r.callData.Canonical) :
    Codec.triggerRequest.toTree r.received = Codec.triggerRequest.toTree r := by
  have hdata : Codec.plain.toTree (ofJson r.callData.toJson) = Codec.plain.toTree r.callData :=
    carried_toJson h
  change Json.object [("callId", _), ("sourceWorkflowId", _), ("sourceRunId", _),
    ("callData", Codec.plain.toTree (ofJson r.callData.toJson)), _, _] = _
  rw [hdata]
  rfl

end TriggerRequest

/-- **Plain JSON normalizes and nothing more.** What comes back of a value is the plain value that stands for
it, and this is settled after the first time. So a request that is read from its text differs from the one
that was written in its data alone, which are normalized, and the run that it starts begins with the message
that it would have begun with in the same process, but for the data. -/
theorem plain_json_normalizes :
    (∀ v : Value, v.Canonical → (ofJson v.toJson == v.norm) = true) ∧
    (∀ v : Value, v.norm.norm = v.norm ∧ v.norm.toJson = v.toJson) ∧
    ∀ (r : TriggerRequest) (layout : Layout), r.callData.Canonical →
      Timestamp.ofText r.calledAt.text = .ok r.calledAt →
      (∀ x ∈ r.callData.numbers, Binary.isFinite x → Codec.RealReadsBack x) →
      (Codec.triggerRequest.toTree r).depth ≤ 127 →
      ∃ data, (data == r.callData.norm) = true ∧
        Codec.triggerRequest.parse (Glyphs.ofBytes (Codec.triggerRequest.render layout r).toUTF8) =
          .ok { r with callData := data } ∧
        ∀ agentId runId, { r with callData := data }.message agentId runId =
          { r.message agentId runId with data := data, dataType := r.callData.norm.dataType } := by
  refine ⟨fun v h => ofJson_toJson h, fun v => ⟨norm_norm v, toJson_norm v⟩, ?_⟩
  intro r layout hcanonical htime hreal hdepth
  have hdata : (ofJson r.callData.toJson == r.callData.norm) = true := ofJson_toJson hcanonical
  have hread := (TriggerRequest.faithful_received hcanonical htime hreal).parse_renders layout
    (Codec.triggerRequest.writes_toTree r.received)
  rw [TriggerRequest.toTree_received hcanonical, ← Codec.render] at hread
  refine ⟨ofJson r.callData.toJson, hdata, hread.ok ⟨trivial, hdepth⟩, fun agentId runId => ?_⟩
  rw [← dataType_of_beq hdata]
  rfl

/-- A request with bytes, a number that is not finite, and a zero with a sign. -/
def TriggerRequest.upload : TriggerRequest where
  callId := "call"
  sourceWorkflowId := "nightly"
  sourceRunId := "run"
  callData := .object [("body", .array [.bytes [0, 255], .number (Float.ofBits 0x7FF8000000000000)]),
    ("offset", .number (-0.0)), ("ratio", .number 1.5)]
  callMode := .sync
  calledAt := ⟨20000, 43200, 250000000⟩

theorem plain_json_normalizes_upload :
    let request := TriggerRequest.upload
    ∃ data, (data == request.callData.norm) = true ∧
      request.callData.norm = .object [("body", .array [.array [.ofNat 0, .ofNat 255], .null]),
        ("offset", .number (-0.0)), ("ratio", .number 1.5)] ∧
      Codec.triggerRequest.parse (Glyphs.ofBytes (Codec.triggerRequest.render .compact request).toUTF8) =
        .ok { request with callData := data } := by
  have hnan : ¬ Binary.isFinite (Float.ofBits 0x7FF8000000000000) := by decide +kernel
  have hzero : Binary.isFinite (-0.0) := by decide +kernel
  have hratio : Binary.isFinite 1.5 := by decide +kernel
  have hnorm : TriggerRequest.upload.callData.norm =
      .object [("body", .array [.array [.ofNat 0, .ofNat 255], .null]),
        ("offset", .number (-0.0)), ("ratio", .number 1.5)] := by
    simp only [TriggerRequest.upload, Value.norm, normMembers, normItems, if_neg hnan, if_pos hzero, if_pos hratio]
    rfl
  have hcanonical : TriggerRequest.upload.callData.Canonical := by
    refine ⟨?_, ⟨trivial, trivial, trivial⟩, trivial, trivial, trivial⟩
    rw [Entries.Sorted]
    decide
  have htime : Timestamp.Regular TriggerRequest.upload.calledAt := ⟨by decide, by decide, by decide⟩
  have hreal : ∀ x ∈ TriggerRequest.upload.callData.numbers, Binary.isFinite x → Codec.RealReadsBack x := by
    have hnumbers : TriggerRequest.upload.callData.numbers = [Float.ofBits 0x7FF8000000000000, -0.0, 1.5] := rfl
    have htext : (Number.real (-0.0)).ReadsAs (.real (-0.0)) := by decide +kernel
    have htext' : (Number.real 1.5).ReadsAs (.real 1.5) := by decide +kernel
    rw [hnumbers, List.forall_mem_cons, List.forall_mem_cons, List.forall_mem_singleton]
    exact ⟨fun h => absurd h hnan, fun _ => ⟨_, htext, rfl⟩, fun _ => ⟨_, htext', rfl⟩⟩
  obtain ⟨data, hdata, hparse, -⟩ := plain_json_normalizes.2.2 .upload .compact hcanonical
    (Timestamp.ofText_text htime) hreal (by decide +kernel)
  exact ⟨data, hdata, hnorm, hparse⟩

end FlowEngine
