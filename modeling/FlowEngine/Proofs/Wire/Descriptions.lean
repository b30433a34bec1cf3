import FlowEngine.Node.Config
import FlowEngine.Node.Meta
import FlowEngine.Proofs.Wire.Values

/-!
# Pipelines and descriptions are read back

Pipelines, descriptions of node types and of tools, and requests to models are records of texts, flags
and values. A value stands in three kinds of places: under a key of a dictionary, as a field of its
own, and as a field that may be missing. In the last of these, null and nothing are different values,
and so they are wherever a value stands inside another one. They have different documents because a
value is written as an object with its kind, null as well, and `null` itself is left for what is
missing.

## Main definitions

* `NodeConfig.values`, `NodeTypeMeta.values`, `ToolSpec.values`, `ModelRequest.values`: the values that
  the records hold.
* `Value.Regular`, `Value.Finite`: what is known of any value, and what JSON asks of it.
* `Codec.Restores`: whole documents are read back, and tell different data apart.

## Main results

* `Codec.faithful_nodeConfig`, `faithful_nodeTypeMeta`, `faithful_toolSpec`, `faithful_modelRequest`.
* `Codec.restores_descriptions`: all four, with pipelines.
-/

namespace FlowEngine

open Json

/-! ## The values inside -/

/-- The keys of all objects inside increase, and the texts of finite numbers are read as the same
numbers. -/
structure Value.Regular (v : Value) : Prop where
  canonical : v.Canonical
  reads : ∀ x ∈ v.numbers, Binary.isFinite x → Codec.RealReadsBack x

/-- All numbers inside are finite. -/
def Value.Finite (v : Value) : Prop := ∀ x ∈ v.numbers, Binary.isFinite x

/-- The values of a configuration. -/
def NodeConfig.values (node : NodeConfig) : List Value := node.config.entries.map (·.2)

/-- The defaults of the parameters that have one. -/
def NodeTypeMeta.values (m : NodeTypeMeta) : List Value :=
  m.parameters.flatMap fun parameter => parameter.default.toList

/-- The schema of the arguments. -/
def ToolSpec.values (tool : ToolSpec) : List Value := [tool.parameters]

/-- The options of a request. -/
def ModelRequest.values (request : ModelRequest) : List Value := request.options.entries.map (·.2)

namespace Codec

theorem faithful_regular {v : Value} (h : v.Regular) : value.Faithful v v.Finite :=
  faithful_value h.canonical h.reads

/-- A default that is null starts with the brace of its object, and one that is missing does not. -/
theorem faithful_optional_value {o : Option Value} (h : ∀ v ∈ o.toList, v.Regular) :
    (Codec.optional value).Faithful o (∀ v ∈ o.toList, v.Finite) := by
  cases o with
  | none => exact faithful_optional_none.congr (by simp)
  | some v =>
    have hstart : ∀ tree, value.Writes v tree →
        ∀ layout level, ∃ g cs, print layout level tree = g :: cs ∧ g ≠ 'n' := by
      intro tree htree layout level
      refine ⟨'\x7b', ?_⟩
      cases htree <;> exact ⟨_, rfl, by decide⟩
    refine ((faithful_regular (h v ?_)).optional hstart).congr ?_
    · exact List.mem_singleton_self v
    · exact List.forall_mem_singleton.symm

theorem faithful_dict_value {d : Dict Value} (h : ∀ v ∈ d.entries.map (·.2), v.Regular) :
    (dict value).Faithful d (∀ v ∈ d.entries.map (·.2), v.Finite) := by
  rw [List.forall_mem_map] at h ⊢
  exact faithful_dict fun m hm => faithful_regular (h m hm)

/-! ## Records -/

theorem faithful_nodeConfig {node : NodeConfig} (h : ∀ v ∈ node.values, v.Regular) :
    nodeConfig.Faithful node (∀ v ∈ node.values, v.Finite) := by
  have hnames : ["id", "node_type", "name", "config"].Nodup := by decide
  refine Faithful.congr (faithful_record (.cons (faithful_text node.id) <|
    .cons (faithful_text node.nodeType) <| .cons (faithful_optional_text node.name) <|
    .cons (faithful_dict_value h) .nil) hnames rfl) ?_
  simp [NodeConfig.values]

theorem faithful_pipeline {nodes : List NodeConfig}
    (h : ∀ v ∈ nodes.flatMap NodeConfig.values, v.Regular) :
    pipeline.Faithful nodes (∀ v ∈ nodes.flatMap NodeConfig.values, v.Finite) := by
  rw [List.forall_mem_flatMap] at h ⊢
  exact faithful_list fun node hnode => faithful_nodeConfig (h node hnode)

theorem faithful_parameterSpec {parameter : ParameterSpec}
    (h : ∀ v ∈ parameter.default.toList, v.Regular) :
    parameterSpec.Faithful parameter (∀ v ∈ parameter.default.toList, v.Finite) := by
  have hnames : ["name", "description", "required", "default"].Nodup := by decide
  refine Faithful.congr (faithful_record (.cons (faithful_text parameter.name) <|
    .cons (faithful_text parameter.description) <| .cons (faithful_flag parameter.required) <|
    .cons (faithful_optional_value h) .nil) hnames rfl) ?_
  simp

theorem faithful_nodeTypeMeta {m : NodeTypeMeta} (h : ∀ v ∈ m.values, v.Regular) :
    nodeTypeMeta.Faithful m (∀ v ∈ m.values, v.Finite) := by
  have hnames : ["type_id", "label", "category", "description", "parameters"].Nodup := by decide
  rw [NodeTypeMeta.values, List.forall_mem_flatMap] at h ⊢
  refine Faithful.congr (faithful_record (.cons (faithful_text m.typeId) <|
    .cons (faithful_text m.label) <| .cons (faithful_text m.category) <|
    .cons (faithful_text m.description) <|
    .cons (faithful_list fun parameter hparameter => faithful_parameterSpec (h parameter hparameter))
      .nil) hnames rfl) ?_
  simp

theorem faithful_toolSpec {tool : ToolSpec} (h : ∀ v ∈ tool.values, v.Regular) :
    toolSpec.Faithful tool (∀ v ∈ tool.values, v.Finite) := by
  have hnames : ["name", "description", "parameters"].Nodup := by decide
  rw [ToolSpec.values, List.forall_mem_singleton] at h ⊢
  refine Faithful.congr (faithful_record (.cons (faithful_text tool.name) <|
    .cons (faithful_text tool.description) <| .cons (faithful_regular h) .nil) hnames rfl) ?_
  simp

theorem faithful_chatMessage (message : ChatMessage) : chatMessage.Faithful message True := by
  have hnames : ["role", "content"].Nodup := by decide
  refine Faithful.congr (faithful_record (.cons (faithful_text message.role) <|
    .cons (faithful_text message.content) .nil) hnames rfl) ?_
  simp

theorem faithful_modelRequest {request : ModelRequest} (h : ∀ v ∈ request.values, v.Regular) :
    modelRequest.Faithful request (∀ v ∈ request.values, v.Finite) := by
  have hnames : ["messages", "options"].Nodup := by decide
  refine Faithful.congr (faithful_record
    (.cons (faithful_list fun message _ => faithful_chatMessage message) <|
    .cons (faithful_dict_value h) .nil) hnames rfl) ?_
  simp [ModelRequest.values]

/-! ## Documents -/

/-- Data with values inside are read back from whatever documents they may be written as, in either layout
and with the members of dictionaries in any order: exactly if all numbers are finite and the document
nests no more deeply than readers follow, and it is refused otherwise. Documents of different data differ,
whatever their layouts and their orders. -/
structure Restores {α : Type} (c : Codec α) (values : α → List Value) : Prop where
  parse_renders : ∀ (a : α) (layout : Layout) (tree : Json), (∀ v ∈ values a, v.Regular) →
    c.Writes a tree →
    OkIff (c.parse (Glyphs.ofBytes (tree.render layout).toUTF8))
      ((∀ v ∈ values a, v.Finite) ∧ tree.depth ≤ 127) a
  eq_of_renders : ∀ (a b : α) (layout layout' : Layout) (tree tree' : Json),
    (∀ v ∈ values a ++ values b, v.Regular ∧ v.Finite) → c.Writes a tree → c.Writes b tree' →
    tree.depth ≤ 127 → tree'.depth ≤ 127 → tree.render layout = tree'.render layout' → a = b

theorem Restores.of_faithful {α : Type} {c : Codec α} {values : α → List Value}
    (h : ∀ a, (∀ v ∈ values a, v.Regular) → c.Faithful a (∀ v ∈ values a, v.Finite)) :
    c.Restores values where
  parse_renders := fun a layout _ hregular htree => (h a hregular).parse_renders layout htree
  eq_of_renders := by
    intro a b layout layout' tree tree' hvalues htree htree' hdepth hdepth' hrender
    rw [List.forall_mem_append, forall₂_and, forall₂_and] at hvalues
    obtain ⟨⟨hregular, hfinite⟩, hregular', hfinite'⟩ := hvalues
    have hparse := ((h a hregular).parse_renders layout htree).ok ⟨hfinite, hdepth⟩
    have hparse' := ((h b hregular').parse_renders layout' htree').ok ⟨hfinite', hdepth'⟩
    rw [hrender, hparse'] at hparse
    exact (Except.ok.inj hparse).symm

/-- **Pipelines and descriptions survive their documents.** Since all of the data come back, so does the
difference between a default that is null and none, between a key of a configuration with null and no
such key, and between bytes and a sequence of numbers, at any depth of the values. Configurations, options
and objects are dictionaries, whose members are written in any order. -/
theorem restores_descriptions :
    pipeline.Restores (fun nodes => nodes.flatMap NodeConfig.values) ∧
      nodeTypeMeta.Restores NodeTypeMeta.values ∧ toolSpec.Restores ToolSpec.values ∧
      modelRequest.Restores ModelRequest.values :=
  ⟨.of_faithful fun _ h => faithful_pipeline h, .of_faithful fun _ h => faithful_nodeTypeMeta h,
    .of_faithful fun _ h => faithful_toolSpec h, .of_faithful fun _ h => faithful_modelRequest h⟩

end Codec

/-- A node type whose parameters have no default, null, and values with null and bytes inside. -/
def NodeTypeMeta.fetching : NodeTypeMeta where
  typeId := "fetch"
  label := "Fetch"
  category := "network"
  parameters := [.mandatory "url" "", .optional "body" "" .null,
    .optional "headers" "" (.object [("accept", .null), ("retry", .array [.null, .number 1.5])]),
    .optional "token" "" (.bytes [0, 255])]

/-- The same node type, where the second parameter has no default either. -/
def NodeTypeMeta.fetchingNothing : NodeTypeMeta :=
  { fetching with parameters := fetching.parameters.set 1 ⟨"body", "", false, none⟩ }

/-- A request with two options. -/
def ModelRequest.guided : ModelRequest where
  messages := [⟨"user", "Hello."⟩]
  options := Dict.ofList [("seed", .null), ("stop", .bytes [0, 255])]

/-- A tree of that request, where the keys of the options decrease. -/
def ModelRequest.guidedTree : Json :=
  .object [("messages", (Codec.list Codec.chatMessage).toTree guided.messages),
    ("options", .object [("stop", Value.toTagged (.bytes [0, 255])), ("seed", Value.toTagged .null)])]

namespace Codec

theorem writes_guidedTree : modelRequest.Writes .guided ModelRequest.guidedTree := by
  have hoptions : (dict value).Writes ModelRequest.guided.options
      (.object [("stop", Value.toTagged (.bytes [0, 255])), ("seed", Value.toTagged .null)]) := by
    refine ⟨[("stop", .bytes [0, 255], _), ("seed", .null, _)], List.Perm.swap _ _ [], ?_, rfl⟩
    simp only [List.forall_mem_cons]
    exact ⟨.bytes [0, 255], .null, List.forall_mem_nil _⟩
  exact ⟨_, ⟨_, _, (list chatMessage).writes_toTree _, ⟨_, _, hoptions, rfl, rfl⟩, rfl⟩, rfl⟩

theorem restores_descriptions_fetching :
    nodeTypeMeta.parse (Glyphs.ofBytes (nodeTypeMeta.render .indented .fetching).toUTF8) =
        .ok .fetching ∧
      nodeTypeMeta.render .compact .fetching ≠ nodeTypeMeta.render .indented .fetchingNothing ∧
      modelRequest.parse (Glyphs.ofBytes (ModelRequest.guidedTree.render .compact).toUTF8) =
        .ok .guided := by
  have hnull : Value.null.Regular ∧ Value.null.Finite :=
    ⟨⟨trivial, List.forall_mem_nil _⟩, List.forall_mem_nil _⟩
  have hbytes : (Value.bytes [0, 255]).Regular ∧ (Value.bytes [0, 255]).Finite :=
    ⟨⟨trivial, List.forall_mem_nil _⟩, List.forall_mem_nil _⟩
  have hheaders (v : Value) (hv : v = .object [("accept", .null), ("retry", .array [.null, .number 1.5])]) :
      v.Regular ∧ v.Finite := by
    have hnumbers : v.numbers = [1.5] := by
      rw [hv]
      rfl
    have hcanonical : v.Canonical := by
      rw [hv]
      exact ⟨List.pairwise_pair.mpr (by decide), trivial, ⟨trivial, trivial, trivial⟩, trivial⟩
    have htext : (Number.real 1.5).ReadsAs (.real 1.5) := by decide +kernel
    rw [Value.Finite, hnumbers, List.forall_mem_singleton]
    refine ⟨⟨hcanonical, ?_⟩, by decide +kernel⟩
    rw [hnumbers, List.forall_mem_singleton]
    exact fun _ => ⟨_, htext, rfl⟩
  have hnothing : ∀ v ∈ NodeTypeMeta.values .fetchingNothing, v.Regular ∧ v.Finite :=
    List.forall_mem_cons.mpr ⟨hheaders _ rfl, List.forall_mem_singleton.mpr hbytes⟩
  have hfetching : ∀ v ∈ NodeTypeMeta.values .fetching, v.Regular ∧ v.Finite :=
    List.forall_mem_cons.mpr ⟨hnull, hnothing⟩
  have hguided : ∀ v ∈ ModelRequest.values .guided, v.Regular ∧ v.Finite :=
    List.forall_mem_cons.mpr ⟨hnull, List.forall_mem_singleton.mpr hbytes⟩
  obtain ⟨-, ⟨hparse, heq⟩, -, ⟨hrequest, -⟩⟩ := restores_descriptions
  refine ⟨?_, fun hrender => ?_, ?_⟩
  · rw [forall₂_and] at hfetching
    exact (hparse .fetching .indented _ hfetching.1 (nodeTypeMeta.writes_toTree _)).ok
      ⟨hfetching.2, by decide +kernel⟩
  · have hsame := heq .fetching .fetchingNothing .compact .indented _ _
      (List.forall_mem_append.mpr ⟨hfetching, hnothing⟩) (nodeTypeMeta.writes_toTree _)
      (nodeTypeMeta.writes_toTree _) (by decide +kernel) (by decide +kernel) hrender
    have hdefaults : [none, some Value.null] = [none, none] :=
      congrArg (fun m => (m.parameters.take 2).map (·.default)) hsame
    cases hdefaults
  · rw [forall₂_and] at hguided
    exact (hrequest .guided .compact _ hguided.1 writes_guidedTree).ok ⟨hguided.2, by decide⟩

end Codec

end FlowEngine
