import FlowEngine.Envelope

/-!
# Descriptions of node types

What a node type says about itself, and the data that its extended contracts exchange.

## Main definitions

* `ParameterSpec`, `NodeTypeMeta`: a node type and its parameters.
* `ChatMessage`, `ModelRequest`, `ModelResponse`: conversations with language models.
* `ToolSpec`: a tool that an agent can call.
-/

namespace FlowEngine

/-- A parameter of a node type. -/
structure ParameterSpec where
  name : String
  description : String
  required : Bool
  default : Option Value

namespace ParameterSpec

/-- A parameter that has to be given. -/
def mandatory (name description : String) : ParameterSpec := ⟨name, description, true, none⟩

/-- A parameter with a default. -/
def optional (name description : String) (default : Value) : ParameterSpec :=
  ⟨name, description, false, some default⟩

end ParameterSpec

/-- A node type. -/
structure NodeTypeMeta where
  typeId : String
  label : String
  category : String
  description : String := ""
  parameters : List ParameterSpec := []

/-- A message of a conversation. -/
structure ChatMessage where
  role : String
  content : String
  deriving DecidableEq

/-- What a language model is asked. -/
structure ModelRequest where
  messages : List ChatMessage
  options : Dict Value

/-- What a language model answers. -/
structure ModelResponse where
  content : String
  model : String
  usage : Dict UInt64

/-- A tool, with the schema of its arguments. -/
structure ToolSpec where
  name : String
  description : String
  parameters : Value

namespace Codec

/-- Parameters as records. -/
def parameterSpec : Codec ParameterSpec :=
  record "ParameterSpec"
    (.cons ⟨"name", text, none⟩ <| .cons ⟨"description", text, none⟩ <|
      .cons ⟨"required", flag, none⟩ <| .cons ⟨"default", optional value, none⟩ .nil)
    (fun (name, description, required, default, _) => ⟨name, description, required, default⟩)
    fun p => (p.name, p.description, p.required, p.default, ())

/-- Node types as records. -/
def nodeTypeMeta : Codec NodeTypeMeta :=
  record "NodeTypeMeta"
    (.cons ⟨"type_id", text, none⟩ <| .cons ⟨"label", text, none⟩ <|
      .cons ⟨"category", text, none⟩ <| .cons ⟨"description", text, none⟩ <|
      .cons ⟨"parameters", list parameterSpec, none⟩ .nil)
    (fun (typeId, label, category, description, parameters, _) =>
      ⟨typeId, label, category, description, parameters⟩)
    fun m => (m.typeId, m.label, m.category, m.description, m.parameters, ())

/-- Messages of conversations as records. -/
def chatMessage : Codec ChatMessage :=
  record "ChatMessage" (.cons ⟨"role", text, none⟩ <| .cons ⟨"content", text, none⟩ .nil)
    (fun (role, content, _) => ⟨role, content⟩) fun m => (m.role, m.content, ())

/-- Requests to models as records. -/
def modelRequest : Codec ModelRequest :=
  record "ModelRequest"
    (.cons ⟨"messages", list chatMessage, none⟩ <|
      .cons ⟨"options", dict value, some {}⟩ .nil)
    (fun (messages, options, _) => ⟨messages, options⟩) fun r => (r.messages, r.options, ())

/-- Answers of models as records. -/
def modelResponse : Codec ModelResponse :=
  record "ModelResponse"
    (.cons ⟨"content", text, none⟩ <| .cons ⟨"model", text, none⟩ <|
      .cons ⟨"usage", dict uint64, some {}⟩ .nil)
    (fun (content, model, usage, _) => ⟨content, model, usage⟩)
    fun r => (r.content, r.model, r.usage, ())

/-- Tools as records. -/
def toolSpec : Codec ToolSpec :=
  record "ToolSpec"
    (.cons ⟨"name", text, none⟩ <| .cons ⟨"description", text, none⟩ <|
      .cons ⟨"parameters", value, none⟩ .nil)
    (fun (name, description, parameters, _) => ⟨name, description, parameters⟩)
    fun t => (t.name, t.description, t.parameters, ())

end Codec

end FlowEngine
