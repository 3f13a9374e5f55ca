import Moaray.Core.Provider
import Moaray.Core.Text

/-!
# Status and transport mapping shared by the provider adapters

`UpstreamReply` is what the network makes of a request that was sent: a transport failure, or a
response with its status and body.

* `mapUpstreamStatus` — the status of a response as one of the canonical errors.
* `mapReqwestError` — a transport failure as one; only a failed connection is retry-safe.
* `collectBytes` — a whole body, or the failure it broke off with.

An HTTP client is not modelled.  What it was given is `HttpRequest`, and what it answered is an
arbitrary value of `UpstreamReply`, so every theorem about an adapter holds for any network.
-/

namespace Moaray

/-- Map an upstream status into the canonical errors; a success status is relayed. -/
def mapUpstreamStatus (status : UInt16) : Except Error Unit :=
  if 200 ≤ status ∧ status < 300 then .ok ()
  else if status = 429 then .error .upstreamRateLimited
  else if 500 ≤ status then .error .upstreamError
  -- 4xx, and any 1xx or 3xx that is not relayed: the upstream is reachable.
  else .error .upstreamClientError

/-- Map a transport failure; only a failed connection means the request never left. -/
def mapReqwestError (e : ReqwestError) : Error :=
  if e.isTimeout then .upstreamTimeout
  else if e.isConnect then .upstreamUnavailable
  else .upstreamError

/-- A request handed to the HTTP client, with a JSON value as its body, which the client prints. -/
structure HttpRequest where
  url : String
  headers : List (String × String)
  json : Json.Value

/-- A response whose status line has arrived; its body may still break off.  What comes of it is
read chunk by chunk. -/
structure UpstreamResponse where
  status : UInt16
  contentType : Option String
  chunks : Chunks

/-- What the network makes of a request that was sent. -/
abbrev UpstreamReply := Except ReqwestError UpstreamResponse

/-- `resp.bytes()`: the whole body, or the first failure. -/
def collectBytes : Chunks → Except ReqwestError Bytes
  | [] => .ok []
  | .ok b :: rest => (collectBytes rest).map (b ++ ·)
  | .error e :: _ => .error e

end Moaray
