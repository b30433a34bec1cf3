import FlowEngine.Node.Activity
import FlowEngine.Platform.Exchange

/-!
# The platform without a network

Requests that are answered at once by a platform that reaches no other system: requests over the
network fail, and results of workflows are kept, since no caller ever waits.

## Main definitions

* `Offline.http`, `Offline.call`: requests over the network.
* `Offline.reply`: any request.
-/

namespace FlowEngine

namespace Offline

/-- Why a request over the network fails. -/
def unreachable (url : String) : String := "error sending request for url (" ++ url ++ ")"

/-- A request to another system. A request that cannot be made is told apart. -/
def http (request : HttpRequest) : Except PlatformError HttpResponse := do
  request.check
  throw (.http (unreachable request.url))

/-- A call of another workflow. A call that cannot be made is told apart. -/
def call (settings : PlatformSettings) (request : CallRequest) :
    Except PlatformError CallResponse := do
  request.check
  let url := endpoint settings.triggerUrl request.target
  throw (.triggerFailed request.target (unreachable url))

/-- The answer to a request. -/
def reply (now : Timestamp) : (request : Request) → Exchange → request.Reply × Exchange
  | .http request, x => (http request, x)
  | .call request, x => (call x.settings request, x)
  | .answer callId data status, x => x.deliver ⟨0⟩ ⟨callId, data, status, now⟩
  | .pause _, x => ((), x)

end Offline

end FlowEngine
