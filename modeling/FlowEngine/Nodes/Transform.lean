import FlowEngine.Node.Definition

/-!
# Transforming payloads

Reading a text as JSON, writing a payload as JSON text, and passing a payload on unchanged.

## Main definitions

* `JsonParse.definition`, `JsonStringify.definition`, `DebugLog.definition`: the nodes.
-/

namespace FlowEngine

namespace JsonParse

/-- Reads the payload as JSON. -/
def run (node : NodeConfig) (input : Envelope String) : Except NodeError (Issuing (Envelope Json)) :=
  match Json.parse (.ofString input.data) with
  | .ok json => .ok (input.forward node.id json)
  | .error fault => .error (.executionFailed ("JSON parse error: " ++ fault.message))

/-- The typed node that reads JSON. -/
def typed : TypedNode String Json where
  info :=
    { typeId := "transform.json_parse"
      label := "Parse JSON"
      category := "transform"
      description := "Parse JSON string" }
  execute := fun _ node input => Activity.attempt (run node input)

/-- The node that reads JSON. -/
def definition : NodeDefinition := typed.definition

end JsonParse

namespace JsonStringify

/-- Writes the payload as JSON text. -/
def run (node : NodeConfig) (input : Envelope Json) : Issuing (Envelope String) :=
  let layout : Json.Layout :=
    if (node.flag? "pretty").getD false then .indented else .compact
  input.forward node.id (input.data.render layout)

/-- The typed node that writes JSON. -/
def typed : TypedNode Json String where
  info :=
    { typeId := "transform.json_stringify"
      label := "Stringify JSON"
      category := "transform"
      description := "Convert value to JSON string"
      parameters := [.optional "pretty" "Indent the output" (.bool false)] }
  execute := fun _ node input => Activity.attempt (.ok (run node input))

/-- The node that writes JSON. -/
def definition : NodeDefinition := typed.definition

end JsonStringify

namespace DebugLog

/-- Passes the payload on. -/
def run (node : NodeConfig) (input : Envelope Value) : Issuing NodeOutput :=
  .single <$> input.forward node.id input.data

/-- The node that shows what passes through it. -/
def definition : NodeDefinition :=
  .simple
    { typeId := "debug.log"
      label := "Debug"
      category := "debug"
      description := "Logs input values for debugging"
      parameters := [.optional "message" "Label for the log line" (.string "(no message)")] }
    fun node input => .ok (run node input)

end DebugLog

end FlowEngine
