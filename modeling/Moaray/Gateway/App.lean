import Moaray.Core.Router
import Moaray.Gateway.Accounting
import Moaray.Gateway.Observe
import Moaray.Gateway.Reload

/-!
# The chat-completions handler

A request is authenticated, limited, read, parsed and routed; then it is relayed to one upstream or
run as a recipe.  The handler is a function of what it meets on the way: the snapshot it is routed
on, the live settings at each later place it reads them (reloads may come in between), the clock,
and what the upstreams do.

* `Surroundings` — all that a request meets.
* `preRoute` — the gates before routing.
* `passthrough`, `runMoa` — the two paths, with the metrics and the rows they record.
* `listModels` — the listing, behind the same first gate.
* `chatCompletions` — the handler.

The snapshot is pinned once, before authentication, and the request is routed, run and priced on
it.  Three settings are read live, each at the place the source reads it: the limit on the body,
the timeout, and whether a completion carries its metadata.  They are three fields of the
surroundings, so a reload between two of the places is two different values and nothing else.

**Design.**  Metrics and rows are part of the result, in the order they are recorded.  A provider
decides a call by its governance or by its last attempt (`Decision`), and what comes of an attempt
is the adapter's; so a surrounding chooses what the upstreams reply and the adapters make of it
what they do.
-/

namespace Moaray

open Framework Json

/-! ## Providers -/

def InnerProvider.upstreamId : InnerProvider → String
  | .openai p => p.upstreamId
  | .anthropic p => p.upstreamId

/-- The raw path of an adapter, given what the network makes of the request. -/
def InnerProvider.passthrough (serde : SerdeJson) (ctx : ReqCtx) (rawBody : Bytes) (stream : Bool)
    (reply : UpstreamReply) : InnerProvider → Except Error RawResponse
  | .openai p =>
      if stream then (p.passthroughStream ctx rawBody reply).2
      else (p.passthrough serde ctx rawBody reply).2
  | .anthropic p =>
      if stream then (p.passthroughStream serde ctx rawBody reply).result
      else (p.passthrough serde ctx rawBody reply).result

/-- The structured path of an adapter, given what the network makes of the request. -/
def InnerProvider.chat (serde : SerdeJson) (repeats : Bytes → Bool) (ctx : ReqCtx)
    (req : ChatRequest) (reply : UpstreamReply) : InnerProvider → Except Error ChatResponse
  | .openai p => (p.chat serde repeats ctx req reply).2
  | .anthropic p => (p.chat serde ctx req reply).result

def ProviderRef.upstreamId (p : ProviderRef) : String := p.provider.inner.upstreamId

/-- How a governed call is decided: its governance refuses it, or its last attempt is sent.  The
governance itself is the subject of its own machine. -/
inductive Decision
  | refused (e : Error)
  | attempted (reply : UpstreamReply)

/-- A governed call as its caller sees it: how long it takes (`none` when it never ends), and how
it is decided. -/
structure RawReply where
  delay : Option ℕ
  decision : Decision

/-- What a raw call ends with: the refusal of its governance, or what its adapter makes of the
reply. -/
def ProviderRef.passthrough (serde : SerdeJson) (ctx : ReqCtx) (rawBody : Bytes) (stream : Bool)
    (p : ProviderRef) : Decision → Except Error RawResponse
  | .refused e => .error e
  | .attempted reply => p.provider.inner.passthrough serde ctx rawBody stream reply

/-- What a governed structured call ends with: the refusal of its governance, or what its adapter
makes of the reply. -/
def ProviderRef.chat (serde : SerdeJson) (repeats : Bytes → Bool) (ctx : ReqCtx)
    (req : ChatRequest) (p : ProviderRef) : Decision → Except Error ChatResponse
  | .refused e => .error e
  | .attempted reply => p.provider.inner.chat serde repeats ctx req reply

/-- What becomes of a structured call: the adapter is given its reply. -/
def chatReply (serde : SerdeJson) (repeats : Bytes → Bool) (c : Moa.ChatCall ProviderRef)
    (reply : RawReply) : Moa.Reply where
  delay := reply.delay
  result := c.provider.chat serde repeats c.ctx c.request reply.decision

/-! ## Requests and responses -/

/-- An inbound request, as far as the handler looks at it; its body is `none` when the client breaks
off. -/
structure Request where
  requestId : String
  authorization : Option String
  body : Option Bytes
  deriving DecidableEq

inductive ResponseBody
  | json (v : Value)
  | stream (s : ByteStream)

structure Response where
  status : UInt16
  headers : List (String × String)
  body : ResponseBody

/-- `StatusCode::from_u16`. -/
def statusCode (status : UInt16) : Option UInt16 :=
  if 100 ≤ status ∧ status < 1000 then some status else none

/-- `HeaderValue::from_str` takes visible characters and tabs. -/
def isHeaderValue (s : String) : Bool :=
  s.toList.all fun c => (32 ≤ c.toNat && c.toNat < 127) || c == '\t'

def jsonResponse (status : UInt16) (v : Value) : Response where
  status := status
  headers := [("content-type", "application/json")]
  body := .json v

def errorResponse (e : Error) : Response :=
  let env := e.envelope
  jsonResponse ((statusCode env.status).getD 500)
    (.object
      (Map.ofFields
        [("error",
          .object
            (Map.ofFields
              [("message", .string env.message), ("type", .string env.errorType),
                ("code", .string env.code), ("param", .null)]))]))

/-- Convert a provider's raw response.  A status that is none becomes 200, and a content type that
is no header value is left out. -/
def intoResponse (raw : RawResponse) (stream : Bool) : Response :=
  let contentType :=
    raw.contentType.getD (if stream then "text/event-stream" else "application/json")
  { status := (statusCode raw.status).getD 200
    headers :=
      (if isHeaderValue contentType then [("content-type", contentType)] else []) ++
        if stream then [("cache-control", "no-cache")] else []
    body := .stream raw.body }

/-! ## What a request meets -/

/-- What reading a typed request off the wire takes besides its value: whether a field its types
know comes twice, and the text of the error of a body that is no request. -/
structure RequestReader where
  repeats : Bytes → Bool
  reason : Bytes → String

/-- `from_slice` of a request. -/
def ChatRequest.fromSlice (serde : SerdeJson) (reader : RequestReader) (bytes : Bytes) :
    Except String ChatRequest :=
  let request := do
    guard !reader.repeats bytes
    let v ← (serde.parse bytes).toOption
    ChatRequest.fromValue v
  match request with
  | some r => .ok r
  | none => .error (reader.reason bytes)

/-- Everything a request meets on its way: the library, the snapshot, the live settings place by
place, the clock, and its upstreams. -/
structure Surroundings (ρ : Type) where
  serde : SerdeJson
  reader : RequestReader
  /-- The snapshot that is live when routing begins. -/
  runtime : Runtime
  stateful : StatefulState ρ
  limiter : GovernorAnswer
  /-- The live settings when the body is read, -/
  atBody : ServerConfig
  /-- when the call starts, -/
  atCall : ServerConfig
  /-- and when the answer is rendered. -/
  atReply : ServerConfig
  /-- The clock when the call starts. -/
  now : Instant
  /-- The wall clock when the rows are booked. -/
  unixMs : Int64
  /-- What a raw call to a provider is met with. -/
  raw : ProviderRef → ReqCtx → Bytes → Bool → RawReply
  /-- What a structured call is met with. -/
  chat : Moa.ChatCall ProviderRef → Moa.Reply
  completion : Moa.CompletionOrder

/-- The providers as the orchestrator sees them. -/
def Surroundings.upstreams {ρ : Type} (w : Surroundings ρ) : Moa.Upstreams ProviderRef where
  upstreamId := ProviderRef.upstreamId
  chat := w.chat

/-- `tokio::time::timeout` around a raw call: a result at the deadline is still in time, and a call
that never ends is a timeout. -/
def rawTimeout (budget : ℕ) (delay : Option ℕ) (result : Except Error RawResponse) :
    Except Error RawResponse :=
  match delay with
  | some d => if d ≤ budget then result else .error .upstreamTimeout
  | none => .error .upstreamTimeout

/-- A request that passed every gate, with the snapshot it is going to run on.  The snapshot does
not change any more for this request. -/
inductive Routed
  | passthrough (auth : AuthContext) (raw : Bytes) (model : String) (stream : Bool)
      (provider : ProviderRef) (runtime : Runtime)
  | moa (callerKeyId recipe : String) (raw : Bytes) (model : String) (runtime : Runtime)

/-- The metrics and the rows a request leaves behind, and what it is answered with, in the order
they were recorded. -/
structure Served (α : Type) where
  metrics : List Metric
  rows : List UsageRecord
  result : α

/-! ## The handler -/

namespace App

variable {ρ : Type} (w : Surroundings ρ)

/-- `to_bytes`: the whole body, within the live cap.  A body that breaks off has no bytes either. -/
def toBytes (body : Option Bytes) (limit : ℕ) : Option Bytes :=
  body.filter fun b => decide (b.length ≤ limit)

/-- The caller of a request, under the keys of the pinned snapshot.  A missing header and a wrong
token are the same error. -/
def caller (req : Request) : Except Error AuthContext := do
  let token ← parseBearer req.authorization
  authenticate w.runtime.config.keys token

def modelJson (m : String) : Value :=
  .object
    (Map.ofFields
      [("id", .string m), ("object", .string "model"), ("owned_by", .string "moaray")])

/-- `GET /v1/models`: the models the caller may use, in the order of their names.  Recipes are not
among them. -/
def listModels (req : Request) : Except Error Response := do
  let auth ← caller w req
  let data := (w.runtime.config.models.keys.filter auth.allows).map modelJson
  .ok (jsonResponse 200
    (.object (Map.ofFields [("object", .string "list"), ("data", .array data)])))

/-- Run every gate and route the request.  The first gate that fails decides, and nothing is
recorded here. -/
def preRoute (req : Request) : Except Error Routed := do
  let rt := w.runtime
  let auth ← caller w req
  (w.stateful.checkKeyLimit auth.keyId w.limiter).2
  let some raw := toBytes req.body w.atBody.maxBodyBytes | .error .payloadTooLarge
  let parsed ← (w.serde.parse raw).mapError fun e => .badRequest ("invalid JSON: " ++ e)
  let some model := (parsed.get "model").bind Value.asStr | .error (.badRequest "missing `model`")
  let stream := ((parsed.get "stream").bind Value.asBool).getD false
  if !auth.allows model then .error (.modelNotAllowed model)
  else
    match route model fun m => rt.config.models.contains m with
    | .passthrough model =>
        match rt.providers[model]? with
        | some provider => .ok (.passthrough auth raw model stream provider rt)
        | none => .error (.modelNotFound model)
    | .moa recipe =>
        if stream then .error .moaStreamingUnsupported
        else .ok (.moa auth.keyId recipe raw model rt)
    | .unknown model => .error (.modelNotFound model)

def booking (requestId callerKeyId : String) (runtime : Runtime) : Booking where
  requestId := requestId
  tsUnixMs := w.unixMs
  callerKeyId := callerKeyId
  models := runtime.config.models

def reqCtx (requestId callerKeyId model : String) : ReqCtx where
  requestId := requestId
  deadline := w.now + durationFromMillis w.atCall.requestTimeoutMs
  callerKeyId := callerKeyId
  model := model

/-- The upstream call of a passthrough, under the live timeout.  The provider is that of the pinned
snapshot. -/
def rawCall (requestId : String) (auth : AuthContext) (raw : Bytes) (model : String)
    (stream : Bool) (provider : ProviderRef) : Except Error RawResponse :=
  let rctx := reqCtx w requestId auth.keyId model
  let reply := w.raw provider rctx raw stream
  rawTimeout (durationFromMillis w.atCall.requestTimeoutMs) reply.delay
    (provider.passthrough w.serde rctx raw stream reply.decision)

/-- A measured row without a price is counted. -/
def countUnpriced (row : UsageRecord) : List Metric :=
  if row.status = .unpriced then [.usageUnpricedTotal] else []

/-- The passthrough path: one upstream call, its outcome counted, and a row for a success that does
not stream. -/
def passthrough (requestId : String) (auth : AuthContext) (raw : Bytes) (model : String)
    (stream : Bool) (provider : ProviderRef) (runtime : Runtime) :
    Served (Except Error Response) :=
  match rawCall w requestId auth raw model stream provider with
  | .ok rawResp =>
      let request := recordRequest .passthrough model rawResp.status
      if stream then
        { metrics := request ++ [.usageUnaccountedStreamTotal]
          rows := []
          result := .ok (intoResponse rawResp stream) }
      else
        let row :=
          passthroughRow (booking w requestId auth.keyId runtime) model provider.upstreamId rawResp
        { metrics := request ++ countUnpriced row
          rows := [row]
          result := .ok (intoResponse rawResp stream) }
  | .error e =>
      { metrics := recordRequest .passthrough model e.envelope.status
        rows := []
        result := .error e }

def armStatus : Moa.ArmStatus → String
  | .ok => "ok"
  | .timeout => "timeout"
  | .error => "error"

/-- The metrics of one arm and of its row: its status, its time, and whether the row lacks a price.
-/
def armMetrics (arm : Moa.ArmOutcome) (row : UsageRecord) : List Metric :=
  recordMoaArm arm.model arm.upstreamId (armStatus arm.status) ++ countUnpriced row

def armJson (arm : Moa.ArmOutcome) : Value :=
  .object
    (Map.ofFields
      [("model", .string arm.model), ("upstream_id", .string arm.upstreamId),
        ("latency_ms", .ofU64 arm.latencyMs), ("status", .string (armStatus arm.status)),
        ("usage_present", .bool arm.usagePresent)])

def moaMetadata (proposers : List Moa.ArmOutcome) (aggregator : Option Moa.ArmOutcome) : Value :=
  .object
    (Map.ofFields
      [("arms", .array (proposers.map armJson)),
        ("aggregator", (aggregator.map armJson).getD .null)])

/-- The completion a run is rendered as, under the settings that are live when this is done. -/
def renderUnder (settings : ServerConfig) (run : Moa.MoaRun) (response : ChatResponse) :
    Response :=
  let body := response.toValue
  jsonResponse 200
    (if settings.moaExposeMetadata then
      body.setField "moaray" (moaMetadata run.proposers run.aggregator)
    else body)

/-- The completion a run is rendered as. -/
def renderMoa (run : Moa.MoaRun) (response : ChatResponse) : Response :=
  renderUnder w.atReply run response

/-- The arms of a run that are booked, in order: the proposers in the order of the recipe, and the
aggregator if it was called. -/
def bookedArms (run : Moa.MoaRun) : List (UsageArm × Moa.ArmOutcome) :=
  run.proposers.map (UsageArm.proposer, ·) ++ run.aggregator.toList.map (UsageArm.aggregator, ·)

/-- The orchestrator's run of a request. -/
def orchestrate (requestId callerKeyId recipe model : String) (request : ChatRequest)
    (runtime : Runtime) : Except Error Moa.MoaRun × List (Moa.ChatCall ProviderRef) :=
  Moa.run w.upstreams w.serde runtime.orchestrator (reqCtx w requestId callerKeyId model)
    w.completion w.now recipe request

/-- The MoA path: the body is read once more, as a typed request, and the recipe is run; its arms
are counted and booked. -/
def runMoa (requestId callerKeyId recipe : String) (raw : Bytes) (model : String)
    (runtime : Runtime) : Served (Except Error Response) :=
  match ChatRequest.fromSlice w.serde w.reader raw with
  | .error e =>
      { metrics := [], rows := [], result := .error (.badRequest ("invalid request: " ++ e)) }
  | .ok request =>
      match (orchestrate w requestId callerKeyId recipe model request runtime).1 with
      | .error e =>
          { metrics := recordRequest .moa model e.envelope.status
            rows := []
            result := .error e }
      | .ok run =>
          let book := booking w requestId callerKeyId runtime
          let arms := (bookedArms run).map fun arm => (arm.2, bookMoaArm book arm.1 arm.2)
          let rows := arms.map Prod.snd
          let seen := arms.flatMap fun arm => armMetrics arm.1 arm.2
          match run.outcome with
          | .ok response =>
              { metrics := seen ++ recordRequest .moa model 200
                rows
                result := .ok (renderMoa w run response) }
          | .error e =>
              { metrics := seen ++ recordRequest .moa model e.envelope.status
                rows
                result := .error e }

def execute (requestId : String) : Routed → Served (Except Error Response)
  | .passthrough auth raw model stream provider runtime =>
      passthrough w requestId auth raw model stream provider runtime
  | .moa callerKeyId recipe raw model runtime =>
      runMoa w requestId callerKeyId recipe raw model runtime

/-- The response a handler's result is turned into.  An error is rendered by its envelope. -/
def respond : Except Error Response → Response
  | .ok response => response
  | .error e => errorResponse e

/-- `POST /v1/chat/completions`, up to the response.  A request refused before routing is counted as
such; after that the two paths keep their own counts. -/
def chatCompletions (req : Request) : Served Response :=
  let served : Served (Except Error Response) :=
    match preRoute w req with
    | .error e =>
        { metrics := recordRejection e.envelope.status, rows := [], result := .error e }
    | .ok routed => execute w req.requestId routed
  { metrics := served.metrics
    rows := served.rows
    result := respond served.result }

end App

end Moaray
