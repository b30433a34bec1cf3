import FlowEngine.Proofs.Payloads.Plain
import FlowEngine.Proofs.Run.Passing

/-!
# Payloads as text and back

One node writes the payload of an envelope as JSON text, and another one reads such texts. A plain payload
comes back from this, whatever it is made of and however the text is laid out. It crosses four forms on the
way: the value becomes a tree, the tree becomes text, and at the other node the text becomes a tree and the
tree a value. The last two steps undo the first two, since the members of the tree are sorted, the texts of
its numbers are theirs, and plain values are what plain JSON keeps.

There is one limit. Writing never fails, but reading follows a text only so far down. A payload that nests
more deeply is written and not read; the envelope of the failure then holds the text that could not be read.

## Main definitions

* `JsonNodes`: a node that writes payloads and one that reads them.

## Main results

* `JsonStringify.exists_written`, `JsonParse.exists_parsed`, `JsonParse.exists_failure`: what each of the
  nodes does.
* `JsonNodes.read_written`: both in turn.
-/

namespace FlowEngine

open Json Value

/-! ## Writing and reading -/

section Executions

variable {registry : Registry} {context : NodeContext} {node : NodeConfig} {e : Envelope Value}

/-- An execution of a typed node that forwards an answer. A failure carries the payload forward. -/
theorem TypedNode.Forwards.execute_registry_cases {ι ο : Type} [Payload ι] [Payload ο] {typed : TypedNode ι ο}
    {answer : NodeConfig → ι → Except NodeError ο} (h : typed.Forwards answer)
    (hp : registry.Provides node.nodeType typed.definition) (hc : context.cancelled = false)
    (e : Envelope Value) (workspace : Workspace) :
    (∃ data e' later, (e.data.decode ι).bind (answer node) = .ok data ∧
      registry.execute context node e workspace = .finished later (.ok (.single e')) ∧
      e'.toMessage = e.toMessage.forward node.id (Value.encode data)) ∨
    ∃ error failure later, (e.data.decode ι).bind (answer node) = .error error ∧
      registry.execute context node e workspace = .finished later (.error failure) ∧
      failure.error = error ∧ failure.envelope.data = e.data := by
  rcases h.execute_cases context node e workspace with
    ⟨error, supply, hanswer, hexec⟩ | ⟨data, supply, e', hanswer, hexec, he'⟩
  · obtain ⟨o, later, hlast, ho⟩ := Registry.exists_execute_of_finished hp hc hexec
    obtain ⟨failure, rfl, herror⟩ := Outcome.exists_failure_of_answer ho
    have hmay : (registry.execute context node e workspace).MayFinish (.error failure) :=
      hlast ▸ .finished _ _
    exact .inr ⟨error, failure, _, hanswer, hlast, herror,
      congrArg (fun x : NodeError × Message Value => x.2.data) (Registry.content_of_failure hmay)⟩
  · obtain ⟨o, later, hlast, ho⟩ := Registry.exists_execute_of_finished hp hc hexec
    obtain rfl := Outcome.eq_ok_of_answer ho
    exact .inl ⟨data, e', _, hanswer, hlast, he'⟩

/-- Any payload is written. -/
theorem JsonStringify.exists_written (hp : registry.Provides node.nodeType JsonStringify.definition)
    (hc : context.cancelled = false) (h : e.data.Canonical) (workspace : Workspace) :
    ∃ written later,
      registry.execute context node e workspace = .finished later (.ok (.single written)) ∧
      written.toMessage =
        e.toMessage.forward node.id (Value.string (e.data.toJson.render node.jsonLayout)) := by
  have hdecode : e.data.decode Json = .ok e.data.toJson := by
    change Except.ok e.data.toJson.normalize = _
    rw [normalize_toJson h]
  rcases forwards_typed.execute_registry_cases hp hc e workspace with
    ⟨text, written, later, hanswer, hexec, hwritten⟩ | ⟨error, failure, later, hanswer, -⟩
  · rw [hdecode] at hanswer
    obtain rfl := Except.ok.inj hanswer
    exact ⟨written, later, hexec, hwritten⟩
  · rw [hdecode] at hanswer
    cases hanswer

/-- A text is read if it is a document. -/
theorem JsonParse.exists_parsed (hp : registry.Provides node.nodeType JsonParse.definition)
    (hc : context.cancelled = false) {text : String} (h : e.data = .string text) {json : Json}
    (hparse : Json.parse (.ofString text) = .ok json) (workspace : Workspace) :
    ∃ parsed later,
      registry.execute context node e workspace = .finished later (.ok (.single parsed)) ∧
      parsed.toMessage = e.toMessage.forward node.id (ofJson json) := by
  have hanswer : (e.data.decode String).bind read = .ok json := by
    rw [h]
    exact congrArg (Except.mapError _) hparse
  rcases forwards_typed.execute_registry_cases hp hc e workspace with
    ⟨read, parsed, later, hread, hexec, hparsed⟩ | ⟨error, failure, later, hread, -⟩
  · rw [hanswer] at hread
    obtain rfl := Except.ok.inj hread
    exact ⟨parsed, later, hexec, hparsed⟩
  · rw [hanswer] at hread
    cases hread

/-- A text that is no document is kept. -/
theorem JsonParse.exists_failure (hp : registry.Provides node.nodeType JsonParse.definition)
    (hc : context.cancelled = false) {text : String} (h : e.data = .string text) {fault : Json.Fault}
    (hparse : Json.parse (.ofString text) = .error fault) (workspace : Workspace) :
    ∃ failure later, registry.execute context node e workspace = .finished later (.error failure) ∧
      failure.error = .executionFailed ("JSON parse error: " ++ fault.message) ∧
      failure.envelope.data = e.data := by
  have hanswer : (e.data.decode String).bind read =
      .error (.executionFailed ("JSON parse error: " ++ fault.message)) := by
    rw [h]
    exact congrArg (Except.mapError _) hparse
  rcases forwards_typed.execute_registry_cases hp hc e workspace with
    ⟨read, parsed, later, hread, -⟩ | ⟨error, failure, later, hread, hexec, herror, hdata⟩
  · rw [hanswer] at hread
    cases hread
  · rw [hanswer] at hread
    obtain rfl := Except.error.inj hread
    exact ⟨failure, later, hexec, herror, hdata⟩

end Executions

/-- A node that writes payloads as JSON text, and one that reads such texts, in a run that has not been
cancelled. -/
structure JsonNodes (registry : Registry) (context : NodeContext) (writer reader : NodeConfig) : Prop where
  writes : registry.Provides writer.nodeType JsonStringify.definition
  reads : registry.Provides reader.nodeType JsonParse.definition
  running : context.cancelled = false

namespace JsonNodes

variable {registry : Registry} {context : NodeContext} {writer reader : NodeConfig}

/-- **Written and read again.** A plain payload that has been written as text, in any layout, is read as an
equal one if its document does not nest too deeply. The envelope says what it said before, and its trace has
been advanced to both nodes in turn. A document that nests more deeply is written as well. Reading it fails,
and the failure keeps the text. -/
theorem read_written (h : JsonNodes registry context writer reader) {input : Envelope Value}
    (hcanonical : input.data.Canonical) (hplain : input.data.isPlain)
    (hreal : ∀ x ∈ input.data.numbers, Codec.RealReadsBack x) (workspace : Workspace) :
    ∃ written later,
      registry.execute context writer input workspace = .finished later (.ok (.single written)) ∧
      written.data = .string (input.data.toJson.render writer.jsonLayout) ∧
      ∀ between : Workspace,
        (input.data.toJson.depth ≤ 127 → ∃ parsed last,
          registry.execute context reader written between = .finished last (.ok (.single parsed)) ∧
            (parsed.data == input.data) = true ∧
            parsed.toMessage = { input.toMessage with
              data := parsed.data
              dataType := input.data.dataType
              trace := (input.trace.next writer.id).next reader.id }) ∧
        (127 < input.data.toJson.depth → ∃ failure last message,
          registry.execute context reader written between = .finished last (.error failure) ∧
            failure.error = .executionFailed message ∧ failure.envelope.data = written.data) := by
  obtain ⟨written, later, hwrite, hwritten⟩ :=
    JsonStringify.exists_written h.writes h.running hcanonical workspace
  have hdata : written.data = .string (input.data.toJson.render writer.jsonLayout) :=
    congrArg Message.data hwritten
  have hparse := parse_render (readsAs_toJson fun x hx _ => hreal x hx) writer.jsonLayout
  rw [normalize_toJson hcanonical] at hparse
  refine ⟨written, later, hwrite, hdata, fun between => ?_⟩
  constructor
  · intro hdepth
    obtain ⟨parsed, last, hlast, hparsed⟩ :=
      JsonParse.exists_parsed h.reads h.running hdata (hparse.ok hdepth) between
    have hback : parsed.data = ofJson input.data.toJson := congrArg Message.data hparsed
    have hsame : (parsed.data == input.data) = true := by
      have hnorm := ofJson_toJson hcanonical
      rwa [norm_of_isPlain hplain, ← hback] at hnorm
    refine ⟨parsed, last, hlast, hsame, ?_⟩
    rw [hparsed, hwritten, ← dataType_of_beq hsame, hback]
    rfl
  · intro hdepth
    obtain ⟨fault, hfault⟩ := hparse.fault (Nat.not_le_of_lt hdepth)
    obtain ⟨failure, last, hlast, herror, hkept⟩ :=
      JsonParse.exists_failure h.reads h.running hdata hfault between
    exact ⟨failure, last, _, hlast, herror, hkept⟩

/-- An order with texts, numbers and a list inside. -/
def order : Envelope Value where
  id := .ofNat 1
  issuedAt := ⟨20000, 43200, 0⟩
  version := 1
  dataType := .object
  data := .object [("lines", .array [.number 2, .number (-0.5)]), ("note", .string "\"gift\"\n")]
  binary := {}
  metadata := {}
  vars := {}
  trace := .start "orders" "run-1" "trigger"
  errors := []

theorem read_written_order :
    let workspace : Workspace := { supply := ⟨2, ⟨20000, 43200, 0⟩⟩ }
    let writer : NodeConfig :=
      { id := "write", nodeType := "transform.json_stringify", config := Dict.insert {} "pretty" (.bool true) }
    let reader : NodeConfig := { id := "read", nodeType := "transform.json_parse" }
    ∃ written later parsed last,
      Registry.standard.execute ⟨"orders", "run-1", false⟩ writer order workspace =
          .finished later (.ok (.single written)) ∧
        Registry.standard.execute ⟨"orders", "run-1", false⟩ reader written later =
            .finished last (.ok (.single parsed)) ∧
          (parsed.data == order.data) = true := by
  intro workspace writer reader
  have hnodes : JsonNodes .standard ⟨"orders", "run-1", false⟩ writer reader :=
    ⟨rfl, rfl, rfl⟩
  have hnumbers : order.data.numbers = [2, -0.5] := rfl
  have hcanonical : order.data.Canonical := by
    refine ⟨?_, ⟨trivial, trivial, trivial⟩, trivial, trivial⟩
    rw [Entries.Sorted]
    decide
  have hplain : order.data.isPlain := by decide +kernel
  have hreal : ∀ x ∈ order.data.numbers, Codec.RealReadsBack x := by
    have htwo : (Number.real 2).ReadsAs (.real 2) := by decide +kernel
    have hhalf : (Number.real (-0.5)).ReadsAs (.real (-0.5)) := by decide +kernel
    rw [hnumbers, List.forall_mem_cons, List.forall_mem_singleton]
    exact ⟨⟨_, htwo, rfl⟩, ⟨_, hhalf, rfl⟩⟩
  obtain ⟨written, later, hwrite, -, hread⟩ := read_written hnodes hcanonical hplain hreal workspace
  obtain ⟨parsed, last, hparse, hsame, -⟩ := (hread later).1 (by decide +kernel)
  exact ⟨written, later, parsed, last, hwrite, hparse, hsame⟩

end JsonNodes

end FlowEngine
