import Moaray.Framework.Fallible
import Moaray.Providers.Common

/-!
# OpenAI-compatible provider adapter

Passthrough is byte-exact: the inbound body goes to the upstream verbatim and the reply comes back
verbatim, with the usage tapped off a non-streaming one.  The structured `chat` path parses the
reply into the typed response.

* `send` — the request: the body it is given, the key as a bearer token, the headers of the call.
* `parseUsageTokens` — the tokens tapped off a body.
* `passthrough`, `passthroughStream`, `chat` — the three methods.
* `passthrough_ok`, `chat_ok` — what a successful call returns.

Nothing is parsed on the way out: the request is sent before its body is looked at, and so no error
of this adapter comes before sending.  The tap reads a copy of the reply's body, and a body it
cannot read is relayed all the same, without tokens.

**Design.**  The typed reader of a response refuses an object in which a field it knows comes
twice, which the value no longer shows once it is parsed.  Whether one does is a parameter of
`fromSlice`, a function of the bytes.
-/

namespace Moaray

open Json Framework

/-- An OpenAI-compatible upstream.  Bodies are relayed to it as they are, and structured calls are
printed. -/
structure OpenAiProvider where
  upstreamId : String
  baseUrl : String
  apiKey : String
  deriving DecidableEq, Repr

/-- A request whose body is sent as it is, byte for byte. -/
structure RawRequest where
  url : String
  bearer : String
  headers : List (String × String)
  body : Bytes

/-- `(prompt_tokens, completion_tokens)` of a body's usage object; `none` without one, or when it
lacks both fields.  One field that is missing alone is zero. -/
def parseUsageTokens (serde : SerdeJson) (bytes : Bytes) : Option (Int64 × Int64) := do
  let v ← (serde.parse bytes).toOption
  let usage ← v.get "usage"
  guard usage.asObject.isSome
  match (usage.get "prompt_tokens").bind Value.asI64,
      (usage.get "completion_tokens").bind Value.asI64 with
  | none, none => none
  | p, c => some (p.getD 0, c.getD 0)

/-- Collect a non-streaming body into a response of one chunk, tapping its usage. -/
def collectResponse (serde : SerdeJson) (resp : UpstreamResponse) : Except Error RawResponse := do
  let bytes ← (collectBytes resp.chunks).mapError mapReqwestError
  .ok
    { status := resp.status, contentType := resp.contentType, body := .once bytes,
      usage := parseUsageTokens serde bytes }

/-- Relay a streaming response frame by frame. -/
def streamResponse (resp : UpstreamResponse) : RawResponse where
  status := resp.status
  contentType := some (resp.contentType.getD "text/event-stream")
  body := .relay resp.chunks
  usage := none

/-- `from_slice` of a response: what its value holds, unless a field the type knows comes twice.
`repeats` tells whether one does, which the value no longer shows. -/
def ChatResponse.fromSlice (serde : SerdeJson) (repeats : Bytes → Bool) (bytes : Bytes) :
    Option ChatResponse := do
  guard !repeats bytes
  let v ← (serde.parse bytes).toOption
  ChatResponse.fromValue v

namespace OpenAiProvider

variable (serde : SerdeJson) (repeats : Bytes → Bool) (p : OpenAiProvider) (ctx : ReqCtx)

def endpoint : String := trimEndSlashes p.baseUrl ++ "/v1/chat/completions"

/-- The request `send` hands to the client. -/
def send (rawBody : Bytes) : RawRequest where
  url := p.endpoint
  bearer := p.apiKey
  headers := [("content-type", "application/json"), ("x-request-id", ctx.requestId)]
  body := rawBody

/-- `passthrough`, given what the network makes of the request. -/
def passthrough (rawBody : Bytes) (reply : UpstreamReply) :
    RawRequest × Except Error RawResponse :=
  (p.send ctx rawBody,
    do
      let resp ← reply.mapError mapReqwestError
      mapUpstreamStatus resp.status
      collectResponse serde resp)

/-- `passthrough_stream`, given what the network makes of the request. -/
def passthroughStream (rawBody : Bytes) (reply : UpstreamReply) :
    RawRequest × Except Error RawResponse :=
  (p.send ctx rawBody,
    do
      let resp ← reply.mapError mapReqwestError
      mapUpstreamStatus resp.status
      .ok (streamResponse resp))

/-- `chat`, given what the network makes of the request. -/
def chat (req : ChatRequest) (reply : UpstreamReply) : RawRequest × Except Error ChatResponse :=
  (p.send ctx (serde.toVec req.toValue),
    do
      let resp ← reply.mapError mapReqwestError
      mapUpstreamStatus resp.status
      let bytes ← (collectBytes resp.chunks).mapError mapReqwestError
      match ChatResponse.fromSlice serde repeats bytes with
      | some response => .ok response
      | none => .error .upstreamError)

variable {serde repeats p ctx}

/-- A successful passthrough relays the body it got. -/
lemma passthrough_ok {rawBody : Bytes} {resp : UpstreamResponse} {raw : RawResponse}
    (h : (p.passthrough serde ctx rawBody (.ok resp)).2 = .ok raw) :
    ∃ bytes, collectBytes resp.chunks = .ok bytes ∧ raw.body = .once bytes ∧
      raw.usage = parseUsageTokens serde bytes := by
  obtain ⟨resp', hresp, h⟩ := bind_eq_ok.1 h
  obtain rfl : resp = resp' := Except.ok.inj hresp
  obtain ⟨_, -, h⟩ := bind_eq_ok.1 h
  obtain ⟨bytes, hbytes, h⟩ := bind_eq_ok.1 h
  obtain rfl := Except.ok.inj h
  exact ⟨bytes, mapError_eq_ok.1 hbytes, rfl, rfl⟩

/-- A successful structured call returns what the body holds. -/
lemma chat_ok {req : ChatRequest} {resp : UpstreamResponse} {response : ChatResponse}
    (h : (p.chat serde repeats ctx req (.ok resp)).2 = .ok response) :
    ∃ bytes, collectBytes resp.chunks = .ok bytes ∧
      ChatResponse.fromSlice serde repeats bytes = some response := by
  obtain ⟨resp', hresp, h⟩ := bind_eq_ok.1 h
  obtain rfl : resp = resp' := Except.ok.inj hresp
  obtain ⟨_, -, h⟩ := bind_eq_ok.1 h
  obtain ⟨bytes, hbytes, h⟩ := bind_eq_ok.1 h
  refine ⟨bytes, mapError_eq_ok.1 hbytes, ?_⟩
  split at h
  · rename_i r hr
    obtain rfl := Except.ok.inj h
    exact hr
  · cases h

/-- A response the body holds is returned: nothing is asked of it beyond its status and its shape.
-/
lemma chat_of_fromSlice {req : ChatRequest} {resp : UpstreamResponse} {bytes : Bytes}
    {response : ChatResponse} (hstatus : mapUpstreamStatus resp.status = .ok ())
    (hbytes : collectBytes resp.chunks = .ok bytes)
    (hslice : ChatResponse.fromSlice serde repeats bytes = some response) :
    (p.chat serde repeats ctx req (.ok resp)).2 = .ok response := by
  refine bind_eq_ok.2 ⟨resp, rfl, bind_eq_ok.2 ⟨(), hstatus, bind_eq_ok.2 ⟨bytes, ?_, ?_⟩⟩⟩
  · exact mapError_eq_ok.2 hbytes
  · rw [hslice]

end OpenAiProvider

end Moaray
