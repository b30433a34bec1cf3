import FlowEngine.Envelope

/-!
# Converters

Wire formats of envelopes, chosen by content type. Both formats are JSON and differ in layout only,
so either reader accepts what either writer produces.

## Main definitions

* `Converter`: a wire format, with `marshal` and `unmarshal`.
* `ConverterSet.Marshals`: the documents that an envelope may be written as.
* `ConverterSet`: the formats that a process knows.
* `ConvertError`: a content type without a format, or a document that is no envelope.
* `FlowError`: any error of the flow of data.
-/

namespace FlowEngine

open Json

/-- Why an envelope cannot be converted. -/
inductive ConvertError where
  | unsupportedContentType (contentType : String)
  | decode (fault : Fault)
  deriving DecidableEq

/-- The message of an error, given how faults are worded. -/
def ConvertError.messageWith (wording : Fault → String) : ConvertError → String
  | .unsupportedContentType contentType => "Unsupported content type: " ++ contentType
  | .decode fault => "Failed to decode envelope: " ++ wording fault

/-- The message of an error. -/
def ConvertError.message : ConvertError → String := messageWith Fault.message

/-- Any error of the flow of data. -/
inductive FlowError where
  | node (error : NodeError)
  | registry (error : RegistryError)
  | «variable» (error : VariableError)
  | convert (error : ConvertError)

/-- The message of an error, given how faults are worded. -/
def FlowError.messageWith (wording : Fault → String) : FlowError → String
  | .node error => "Node error: " ++ error.message
  | .registry error => "Registry error: " ++ error.message
  | .variable error => "Variable error: " ++ error.message
  | .convert error => "Conversion error: " ++ error.messageWith wording

/-- The message of an error. -/
def FlowError.message : FlowError → String := messageWith Fault.message

/-- A wire format of envelopes. -/
structure Converter where
  layout : Layout
  deriving DecidableEq, Repr

namespace Converter

/-- The format without blanks. -/
def compact : Converter := ⟨.compact⟩

/-- The format with a line for every item and member. -/
def pretty : Converter := ⟨.indented⟩

/-- The content type of a format. -/
def contentType (c : Converter) : String :=
  match c.layout with
  | .compact => "application/json"
  | .indented => "application/json; format=pretty"

/-- The document of an envelope, where the keys of dictionaries increase. -/
def marshal (c : Converter) (e : Envelope Value) : String :=
  (Codec.envelope Codec.value).render c.layout e

/-- The documents that an envelope may be written as. -/
def Marshals (c : Converter) (e : Envelope Value) (document : String) : Prop :=
  (Codec.envelope Codec.value).Renders c.layout e document

/-- The envelope of a document. -/
def unmarshal (_ : Converter) (document : Glyphs) : Except ConvertError (Envelope Value) :=
  ((Codec.envelope Codec.value).parse document).mapError .decode

end Converter

/-- Converters by content type. -/
structure ConverterSet where
  converters : Dict Converter

namespace ConverterSet

/-- No converters. -/
def empty : ConverterSet := ⟨{}⟩

/-- Adds a converter under its content type. -/
def register (set : ConverterSet) (c : Converter) : ConverterSet :=
  ⟨set.converters.insert c.contentType c⟩

/-- Both JSON formats. -/
def standard : ConverterSet := (empty.register .compact).register .pretty

/-- The converter of a content type. -/
def get (set : ConverterSet) (contentType : String) : Except ConvertError Converter :=
  match set.converters.get? contentType with
  | some c => .ok c
  | none => .error (.unsupportedContentType contentType)

/-- The document of an envelope in the format of a content type. -/
def marshal (set : ConverterSet) (contentType : String) (e : Envelope Value) :
    Except ConvertError String :=
  (set.get contentType).map fun c => c.marshal e

/-- The documents that an envelope may be written as in the format of a content type. -/
def Marshals (set : ConverterSet) (contentType : String) (e : Envelope Value) (document : String) : Prop :=
  ∃ c, set.get contentType = .ok c ∧ c.Marshals e document

/-- What is written is one of the documents. -/
theorem marshals_of_marshal {set : ConverterSet} {contentType : String} {e : Envelope Value}
    {document : String} (h : set.marshal contentType e = .ok document) :
    set.Marshals contentType e document := by
  rw [marshal] at h
  cases hc : set.get contentType with
  | error error =>
    rw [hc] at h
    cases h
  | ok c =>
    rw [hc] at h
    obtain rfl := Except.ok.inj h
    exact ⟨c, hc, Codec.renders_render _ c.layout e⟩

/-- The envelope of a document in the format of a content type. -/
def unmarshal (set : ConverterSet) (contentType : String) (document : Glyphs) :
    Except ConvertError (Envelope Value) :=
  (set.get contentType).bind fun c => c.unmarshal document

/-- The content types in order. -/
def contentTypes (set : ConverterSet) : List String := set.converters.keys

end ConverterSet

end FlowEngine
