import FlowEngine.Nodes.Sequence

/-!
# Requests to other systems

The request goes through the platform. Whatever the other system answers is data; only a request
that gets no answer fails.

## Main definitions

* `HttpNode.request`: the request that a node makes.
* `HttpNode.payload`: its answer as a value.
* `HttpNode.definition`: the node.
-/

namespace FlowEngine

namespace HttpNode

/-- The configured address. -/
def url (node : NodeConfig) : Except NodeError String := do
  let value ← node.requireConfig "url"
  match value.asString? with
  | some url => return url
  | none => throw (.invalidInputType "url" "string" value.dataType.name)

/-- The methods that carry the payload unless a body is configured. -/
def carriesPayload (method : String) : Bool := method ∈ ["POST", "PUT", "PATCH"]

/-- The body of a request. -/
def body (node : NodeConfig) (method : String) (payload : Value) : Option Value :=
  ((node.config.get? "body").filter fun v => !v.isNull).or
    (if carriesPayload method && !payload.isNull then some payload else none)

/-- The configured headers, as far as they are texts. -/
def headers (node : NodeConfig) : Dict String :=
  match node.config.get? "headers" with
  | some (.object members) => .ofList (members.filterMap fun m => m.2.asString?.map fun s => (m.1, s))
  | _ => {}

/-- The request that a node makes. -/
def request (node : NodeConfig) (payload : Value) : Except NodeError HttpRequest := do
  let url ← url node
  let method := Text.upper ((node.text? "method").getD "GET")
  let seconds ← node.natural? "timeout_seconds"
  return { method, url
           headers := headers node
           body := body node method payload
           timeout := seconds.map Duration.ofSeconds }

/-- An answer as a value. -/
def payload (response : HttpResponse) : Value :=
  .ofMembers [("status", .ofNat response.status.toNat), ("body", .string response.body),
    ("headers", .ofDict (response.headers.map Value.string)),
    ("duration_ms", .ofNat response.duration.millis)]

/-- Makes the request. -/
def execute (node : NodeConfig) (input : Envelope Value) :
    Activity (Except NodeError NodeOutput) :=
  match request node input.data with
  | .error e => pure (.error e)
  | .ok request => do
    match ← Activity.ask (.http request) with
    | .ok response => Activity.emit (input.forward node.id (payload response))
    | .error e => return .error e.toNodeError

/-- The node that makes requests. -/
def definition : NodeDefinition where
  info :=
    { typeId := "http.request"
      label := "HTTP Request"
      category := "http"
      description := "Make HTTP requests"
      parameters :=
        [.mandatory "url" "Request URL",
          .optional "method" "HTTP method" (.string "GET"),
          .optional "headers" "Header map" .null,
          .optional "body" "Request body; defaults to the payload for POST, PUT and PATCH" .null,
          .optional "timeout_seconds" "Request timeout" .null] }
  execute := fun _ node input => execute node input

end HttpNode

end FlowEngine
