import FlowEngine.Converter
import FlowEngine.Proofs.Wire.Identifiers
import FlowEngine.Proofs.Wire.Moments
import FlowEngine.Proofs.Wire.Values

/-!
# Envelopes are read back

Envelopes are records of parts that are read back each, so nothing is lost on the wire but what JSON
cannot say: numbers that are not finite, and trees that nest more deeply than a reader follows. In
these cases the document is refused as a whole, and never taken for another envelope. Layouts differ
in blanks only, so it does not matter in which of them a document was written. Nor does it matter in
which order the members of dictionaries were written, at any depth: a dictionary has none, so an envelope
has as many documents as there are such orders, and what is said here is said of each of them.

## Main definitions

* `Envelope.numbers`, `Envelope.moments`: what an envelope holds that may have no text of its own.

## Main results

* `Codec.faithful_envelope`: envelopes are read back.
* `ConverterSet.unmarshal_marshal`: what one converter writes, any converter reads.
-/

namespace FlowEngine

open Json

/-! ## Parts of an envelope -/

namespace Codec

theorem faithful_uuid (id : Uuid) : uuid.Faithful id True := by
  refine faithful_formatted ?_
  rw [Uuid.ofText_text]
  rfl

theorem faithful_timestamp {t : Timestamp} (h : t.Regular) : timestamp.Faithful t True := by
  refine faithful_formatted ?_
  rw [Timestamp.ofText_text h]
  rfl

theorem faithful_dataType (t : DataType) : dataType.Faithful t True := by
  refine faithful_choice ?_
  cases t <;> rfl

theorem faithful_trace (t : Trace) : trace.Faithful t True := by
  have hnames : ["agent_id", "run_id", "parent_id", "node_id", "step", "attempt"].Nodup := by decide
  refine Faithful.congr (faithful_record (.cons (faithful_text t.agentId) <| .cons (faithful_text t.runId) <|
    .cons (faithful_optional_text t.parentId) <| .cons (faithful_text t.nodeId) <|
    .cons (faithful_text t.step) <| .cons (faithful_uint32 t.attempt) .nil) hnames rfl) ?_
  simp

theorem faithful_executionError {e : ExecutionError} (h : e.time.Regular) :
    executionError.Faithful e True := by
  have hnames : ["time", "node_id", "message", "stack", "code"].Nodup := by decide
  refine Faithful.congr (faithful_record (.cons (faithful_timestamp h) <| .cons (faithful_text e.nodeId) <|
    .cons (faithful_text e.message) <| .cons (faithful_optional_text e.stack) <|
    .cons (faithful_optional_text e.code) .nil) hnames rfl) ?_
  simp

end Codec

/-! ## Envelopes -/

namespace Envelope

variable {α : Type}

/-- The times that an envelope holds. -/
def moments (e : Envelope α) : List Timestamp := e.issuedAt :: e.errors.map (·.time)

/-- The numbers inside the payload and the variables of an envelope. -/
def numbers (e : Envelope Value) : List Float :=
  e.data.numbers ++ e.vars.entries.flatMap fun m => m.2.numbers

/-- All objects inside the payload and the variables have increasing keys. -/
structure Canonical (e : Envelope Value) : Prop where
  data : e.data.Canonical
  vars : ∀ m ∈ e.vars.entries, m.2.Canonical

theorem forall_mem_numbers {e : Envelope Value} {p : Float → Prop} :
    (∀ x ∈ e.numbers, p x) ↔
      (∀ x ∈ e.data.numbers, p x) ∧ ∀ m ∈ e.vars.entries, ∀ x ∈ m.2.numbers, p x := by
  rw [numbers, List.forall_mem_append, List.forall_mem_flatMap]

end Envelope

namespace Codec

/-- An envelope is read back if its payload and its variables are. -/
theorem faithful_envelope {α : Type} {payload : Codec α} {e : Envelope α} {p : Prop}
    {q : Value → Prop} (hmoments : ∀ t ∈ e.moments, t.Regular) (hdata : payload.Faithful e.data p)
    (hvars : ∀ m ∈ e.vars.entries, value.Faithful m.2 (q m.2)) :
    (envelope payload).Faithful e (p ∧ ∀ m ∈ e.vars.entries, q m.2) := by
  have hnames : ["id", "issued_at", "version", "data_type", "data", "binary", "meta", "variables",
      "trace", "errors"].Nodup := by decide
  rw [Envelope.moments, List.forall_mem_cons, List.forall_mem_map] at hmoments
  have hbinary : (dict (list uint8)).Faithful e.binary (∀ m ∈ e.binary.entries, ∀ b ∈ m.2, True) :=
    faithful_dict (p := fun bytes => ∀ b ∈ bytes, True) fun m _ => faithful_list fun b _ => faithful_uint8 b
  have hmeta : (dict text).Faithful e.metadata (∀ m ∈ e.metadata.entries, True) :=
    faithful_dict (p := fun _ => True) fun m _ => faithful_text m.2
  have herrors : (list executionError).Faithful e.errors (∀ error ∈ e.errors, True) :=
    faithful_list fun error h => faithful_executionError (hmoments.2 error h)
  refine Faithful.congr (faithful_record (.cons (faithful_uuid e.id) <| .cons (faithful_timestamp hmoments.1) <|
    .cons (faithful_uint32 e.version) <| .cons (faithful_dataType e.dataType) <| .cons hdata <|
    .cons hbinary <| .cons hmeta <| .cons (faithful_dict hvars) <| .cons (faithful_trace e.trace) <|
    .cons herrors .nil) hnames rfl) ?_
  simp

end Codec

namespace ConverterSet

theorem get_standard (c : Converter) : standard.get c.contentType = .ok c := by
  obtain ⟨layout⟩ := c
  cases layout <;> rfl

theorem unmarshal_standard (reader : Converter) (s : Glyphs) :
    standard.unmarshal reader.contentType s = ((Codec.envelope Codec.value).parse s).mapError .decode := by
  rw [unmarshal, get_standard]
  rfl

theorem marshal_standard (writer : Converter) (e : Envelope Value) :
    standard.marshal writer.contentType e = .ok ((Codec.envelope Codec.value).render writer.layout e) := by
  rw [marshal, get_standard]
  rfl

theorem marshals_standard_iff {writer : Converter} {e : Envelope Value} {document : String} :
    standard.Marshals writer.contentType e document ↔
      ∃ tree, (Codec.envelope Codec.value).Writes e tree ∧ document = tree.render writer.layout := by
  constructor
  · rintro ⟨c, hc, hdocument⟩
    rw [get_standard] at hc
    obtain rfl := Except.ok.inj hc
    exact hdocument
  · exact fun hdocument => ⟨writer, get_standard writer, hdocument⟩

/-- **Converters read what converters write.** Both converters write any envelope. Whatever document of an
envelope either has written, in whatever order the members of its dictionaries stand, either reads the
envelope back from it: exactly if all numbers in its payload and variables are finite and the document
nests no more deeply than readers follow. Any other document is refused. -/
theorem unmarshal_marshal {e : Envelope Value} (hcanonical : e.Canonical)
    (hmoments : ∀ t ∈ e.moments, t.Regular)
    (hreal : ∀ x ∈ e.numbers, Binary.isFinite x → Codec.RealReadsBack x) (writer reader : Converter) :
    (∃ document, standard.marshal writer.contentType e = .ok document ∧
      standard.Marshals writer.contentType e document) ∧
    (∀ document, standard.Marshals writer.contentType e document ↔
      ∃ tree, (Codec.envelope Codec.value).Writes e tree ∧ document = tree.render writer.layout) ∧
    ∀ tree, (Codec.envelope Codec.value).Writes e tree →
      let outcome := standard.unmarshal reader.contentType
        (Glyphs.ofBytes (tree.render writer.layout).toUTF8)
      (outcome = .ok e ↔ (∀ x ∈ e.numbers, Binary.isFinite x) ∧ tree.depth ≤ 127) ∧
        (outcome ≠ .ok e → ∃ fault, outcome = .error (.decode fault)) := by
  rw [Envelope.forall_mem_numbers] at hreal
  have hdata := Codec.faithful_value hcanonical.data hreal.1
  have hvars : ∀ m ∈ e.vars.entries, Codec.value.Faithful m.2 (∀ x ∈ m.2.numbers, Binary.isFinite x) :=
    fun m hm => Codec.faithful_value (hcanonical.vars m hm) (hreal.2 m hm)
  have henvelope := (Codec.faithful_envelope (q := fun v => ∀ x ∈ v.numbers, Binary.isFinite x)
    hmoments hdata hvars).congr Envelope.forall_mem_numbers.symm
  refine ⟨⟨_, marshal_standard writer e, marshals_of_marshal (marshal_standard writer e)⟩,
    fun _ => marshals_standard_iff, fun tree htree => ?_⟩
  rw [unmarshal_standard]
  exact (henvelope.parse_renders writer.layout htree).mapError ConvertError.decode

/-- An envelope with a measured value, one that was set as a variable, and an error on record. -/
def measured : Envelope Value where
  id := .ofNat 7
  issuedAt := ⟨20000, 43200, 250000000⟩
  version := 1
  dataType := .object
  data := .object [("reading", .number 1.5), ("unit", .string "kelvin")]
  binary := {}
  metadata := Dict.insert {} "source" "sensor"
  vars := Dict.insert {} "offset" (.array [.number 0.25, .null])
  trace := .start "agent" "run" "probe"
  errors := [⟨⟨20000, 43199, 1500000000⟩, "probe", "Too slow.", none, some "TIMEOUT"⟩]

/-- A tree of that envelope, with the unit before the reading. -/
def measuredTree : Json :=
  .object (([("id", Codec.uuid.toTree measured.id), ("issued_at", Codec.timestamp.toTree measured.issuedAt),
      ("version", Codec.uint32.toTree measured.version),
      ("data_type", Codec.dataType.toTree measured.dataType)] : List (String × Json)) ++
    [("data", Value.tagged .object (.object [("unit", Value.toTagged (.string "kelvin")),
      ("reading", Value.toTagged (.number 1.5))])),
    ("binary", .object []), ("meta", .object [("source", .string "sensor")]),
    ("variables", (Codec.dict Codec.value).toTree measured.vars),
    ("trace", Codec.trace.toTree measured.trace),
    ("errors", (Codec.list Codec.executionError).toTree measured.errors)])

theorem writes_measuredTree : (Codec.envelope Codec.value).Writes measured measuredTree := by
  have hdata : Codec.value.Writes measured.data (Value.tagged .object
      (.object [("unit", Value.toTagged (.string "kelvin")), ("reading", Value.toTagged (.number 1.5))])) := by
    refine @Value.Writes.object _ [("unit", .string "kelvin", _), ("reading", .number 1.5, _)]
      (List.Perm.swap _ _ []) ?_
    simp only [List.forall_mem_cons]
    exact ⟨.string "kelvin", .number 1.5, List.forall_mem_nil _⟩
  exact ⟨_, ⟨_, _, rfl, ⟨_, _, rfl, ⟨_, _, rfl, ⟨_, _, rfl, ⟨_, _, hdata, Fields.writes_toMembers _ _, rfl⟩,
    rfl⟩, rfl⟩, rfl⟩, rfl⟩, rfl⟩

theorem unmarshal_marshal_measured :
    let document := measuredTree.render .indented
    standard.Marshals Converter.pretty.contentType measured document ∧
      standard.marshal Converter.pretty.contentType measured ≠ .ok document ∧
      standard.unmarshal Converter.compact.contentType (Glyphs.ofBytes document.toUTF8) =
        .ok measured := by
  have hnumbers : measured.numbers = [1.5, 0.25] := rfl
  have hfinite : ∀ x ∈ measured.numbers, Binary.isFinite x := by
    rw [hnumbers]
    decide +kernel
  have hreal : ∀ x ∈ measured.numbers, Binary.isFinite x → Codec.RealReadsBack x := by
    have htext : (Number.real 1.5).ReadsAs (.real 1.5) := by decide +kernel
    have htext' : (Number.real 0.25).ReadsAs (.real 0.25) := by decide +kernel
    rw [hnumbers, List.forall_mem_cons, List.forall_mem_singleton]
    exact ⟨fun _ => ⟨_, htext, rfl⟩, fun _ => ⟨_, htext', rfl⟩⟩
  have hcanonical : measured.Canonical := by
    constructor
    · have hsorted : Entries.Sorted [("reading", Value.number 1.5), ("unit", .string "kelvin")] :=
        List.pairwise_pair.mpr (by decide)
      exact ⟨hsorted, trivial, trivial, trivial⟩
    · have hvars : measured.vars.entries = [("offset", .array [.number 0.25, .null])] := rfl
      rw [hvars]
      simp [Value.Canonical, Value.CanonicalItems]
  have hmoments : ∀ t ∈ measured.moments, t.Regular := by
    have hissued : Timestamp.Regular ⟨20000, 43200, 250000000⟩ := ⟨by decide, by decide, by decide⟩
    have herror : Timestamp.Regular ⟨20000, 43199, 1500000000⟩ := ⟨by decide, by decide, by decide⟩
    simp only [measured, Envelope.moments, List.map_cons, List.map_nil, List.forall_mem_cons]
    exact ⟨hissued, herror, List.forall_mem_nil _⟩
  obtain ⟨-, hdocuments, hread⟩ := unmarshal_marshal hcanonical hmoments hreal .pretty .compact
  refine ⟨(hdocuments _).mpr ⟨measuredTree, writes_measuredTree, rfl⟩, ?_, ?_⟩
  · rw [marshal_standard]
    have hne : ((Codec.envelope Codec.value).toTree measured).print .indented 0 ≠
        measuredTree.print .indented 0 := by
      decide +kernel
    exact fun hsame => hne (String.ofList_injective (Except.ok.inj hsame))
  · exact (hread measuredTree writes_measuredTree).1.mpr ⟨hfinite, by decide⟩

end ConverterSet

end FlowEngine
