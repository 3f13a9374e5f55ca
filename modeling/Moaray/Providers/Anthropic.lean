import Moaray.Framework.Fallible
import Moaray.Providers.AnthropicMap
import Moaray.Providers.Common

/-!
# Anthropic Messages API adapter

Callers speak OpenAI on every path.  Each method first builds the upstream request out of the
caller's, which can fail before anything is sent, then sends it and reads the reply.  An `Attempt`
keeps the two apart: what was sent, if anything, and the result.

* `passthrough`, `passthroughStream`, `chat` — the three methods, and `call`, any one of them.
* `openaiToAnthropic_error`, `buildBody_error`, `call_unsent` — what fails before sending is a bad
  or an unsupported request.
* `call_unanswered` — a request that was sent and got no response ends with the transport failure.
* `anthropicToOpenai_usage`, `passthrough_ok`, `chat_ok` — what a successful call returns, and
  where its usage was read.

The gateway's circuit breaker is told the result of a call and not whether anything was sent. The
lemmas here are what connects the two: which errors can come before sending, and which of them
count as a failure of the upstream.

**Design.**  A method takes the reply of the network as an argument, a failure or a response with
its chunks, and the request it made is part of its result.  So one definition covers every
behaviour of the upstream, and a statement about all of them quantifies over replies.
-/

namespace Moaray

open Json Framework

/-- One inner attempt: the request that was sent, if one was, and what the caller gets. -/
structure Attempt (ρ : Type) where
  sent : Option HttpRequest
  result : Except Error ρ

/-- An attempt that ended before anything was sent. -/
def Attempt.unsent {ρ : Type} (e : Error) : Attempt ρ where
  sent := none
  result := .error e

/-- An Anthropic Messages upstream.  The key goes out in a header of every request. -/
structure AnthropicProvider where
  upstreamId : String
  baseUrl : String
  apiKey : String
  defaultMaxTokens : UInt32
  deriving DecidableEq, Repr

namespace AnthropicProvider

open AnthropicMap

/-- The Messages API version every request names. -/
def anthropicVersion : String := "2023-06-01"

variable (serde : SerdeJson) (p : AnthropicProvider) (ctx : ReqCtx)

def endpoint : String := trimEndSlashes p.baseUrl ++ "/v1/messages"

/-- Parse the inbound JSON and build the upstream body; returns the requested model with it. -/
def buildBody (rawBody : Bytes) (stream : Bool) : Except Error (String × Value) := do
  let openai ← (serde.parse rawBody).mapError fun e => .badRequest ("invalid JSON: " ++ e)
  let model := ((openai.get "model").bind Value.asStr).getD ""
  let anthropic ← openaiToAnthropic serde.print openai p.defaultMaxTokens
  .ok (model, anthropic.setField "stream" (.bool stream))

/-- The request `send` hands to the client. -/
def send (body : Value) : HttpRequest where
  url := p.endpoint
  headers := [("x-api-key", p.apiKey), ("anthropic-version", anthropicVersion),
    ("content-type", "application/json"), ("x-request-id", ctx.requestId)]
  json := body

/-- The tokens of a raw `usage` object, when the reply carries one.  A reply without one has no
tokens, and one that lacks a side has zero there. -/
def rawUsage (anthropic : Value) : Option (Int64 × Int64) :=
  (anthropic.get "usage").map fun u =>
    ((usageTokens (some u)).1.toInt64, (usageTokens (some u)).2.toInt64)

/-- The Messages response in a reply of success status. -/
def readReply (reply : UpstreamReply) : Except Error (UInt16 × Value) := do
  let resp ← reply.mapError mapReqwestError
  mapUpstreamStatus resp.status
  let bytes ← (collectBytes resp.chunks).mapError mapReqwestError
  let anthropic ← (serde.parse bytes).mapError fun _ => .upstreamError
  .ok (resp.status, anthropic)

/-- `passthrough`, given what the network makes of the request. -/
def passthrough (rawBody : Bytes) (reply : UpstreamReply) : Attempt RawResponse :=
  match p.buildBody serde rawBody false with
  | .error e => .unsent e
  | .ok (model, body) =>
      { sent := some (p.send ctx body)
        result := do
          let (status, anthropic) ← readReply serde reply
          let openai ← anthropicToOpenai anthropic model
          .ok
            { status, contentType := some "application/json",
              body := .once (serde.toVec openai), usage := rawUsage anthropic } }

/-- `passthrough_stream`, given what the network makes of the request. -/
def passthroughStream (rawBody : Bytes) (reply : UpstreamReply) : Attempt RawResponse :=
  match p.buildBody serde rawBody true with
  | .error e => .unsent e
  | .ok (model, body) =>
      { sent := some (p.send ctx body)
        result := do
          let resp ← reply.mapError mapReqwestError
          mapUpstreamStatus resp.status
          .ok
            { status := resp.status, contentType := some "text/event-stream",
              body := .translated model resp.chunks, usage := none } }

/-- `chat`, given what the network makes of the request. -/
def chat (req : ChatRequest) (reply : UpstreamReply) : Attempt ChatResponse :=
  match openaiToAnthropic serde.print req.toValue p.defaultMaxTokens with
  | .error e => .unsent e
  | .ok body =>
      { sent := some (p.send ctx (body.setField "stream" (.bool false)))
        result := do
          let (_, anthropic) ← readReply serde reply
          let openai ← anthropicToOpenai anthropic req.model
          let some chat := ChatResponse.fromValue openai | .error .internal
          -- A usage the upstream did not report is dropped, not booked as zero.
          .ok (if (anthropic.get "usage").isNone then { chat with usage := none } else chat) }

end AnthropicProvider

/-- A call to a provider: its method with what it carries, the bytes of the client or a typed
request. -/
inductive ProviderCall
  | passthrough (rawBody : Bytes)
  | passthroughStream (rawBody : Bytes)
  | chat (req : ChatRequest)

/-- What a provider answers, on either path. -/
inductive ProviderReply
  | raw (response : RawResponse)
  | chat (response : ChatResponse)

def Attempt.map {ρ σ : Type} (f : ρ → σ) (a : Attempt ρ) : Attempt σ where
  sent := a.sent
  result := a.result.map f

/-- Run one method, given what the network makes of the request. -/
def AnthropicProvider.call (serde : SerdeJson) (p : AnthropicProvider) (ctx : ReqCtx) :
    ProviderCall → UpstreamReply → Attempt ProviderReply
  | .passthrough rawBody, reply => (p.passthrough serde ctx rawBody reply).map .raw
  | .passthroughStream rawBody, reply => (p.passthroughStream serde ctx rawBody reply).map .raw
  | .chat req, reply => (p.chat serde ctx req reply).map .chat

/-! ## What can fail before sending -/

namespace AnthropicMap

/-- An error of the gateway's own making: the request is bad or not supported.  The upstream had no
part in it. -/
def IsRejection (e : Error) : Prop := ∃ msg, e = .badRequest msg ∨ e = .unsupported msg

lemma IsRejection.neutral {e : Error} (h : IsRejection e) : e.countsAgainstBreaker = false := by
  obtain ⟨msg, rfl | rfl⟩ := h <;> rfl

lemma rejectTools_error {req : Value} {fields : List String} {e : Error}
    (h : rejectTools req fields = .error e) : IsRejection e := by
  induction fields with
  | nil => cases h
  | cons field rest ih =>
      unfold rejectTools at h
      split at h
      · split at h
        · exact ih h
        · cases h
          exact ⟨_, .inr rfl⟩
      · exact ih h

/-- A part of another type is all that stops the reading of parts, and the error names it as the
caller asked. -/
lemma partsToText_error {unsupported : String → String} {parts : List Value} {e : Error}
    (h : partsToText unsupported parts = .error e) : ∃ msg, e = .unsupported msg := by
  induction parts with
  | nil => cases h
  | cons part rest ih =>
      unfold partsToText at h
      simp only [] at h
      split at h
      · cases h
        exact ⟨_, rfl⟩
      · rcases bind_eq_error.1 h with hrest | ⟨tail, -, htail⟩
        · exact ih hrest
        · cases htail

lemma contentToText_error {print : Value → String} {content : Option Value} {e : Error}
    (h : contentToText print content = .error e) : IsRejection e := by
  unfold contentToText at h
  split at h
  · cases h
  · cases h
  · cases h
  · obtain ⟨msg, rfl⟩ := partsToText_error h
    exact ⟨msg, .inr rfl⟩
  · cases h
    exact ⟨_, .inl rfl⟩

lemma addMessage_error {print : Value → String} {acc : Conversation} {m : Value} {e : Error}
    (h : addMessage print acc m = .error e) : IsRejection e := by
  rcases bind_eq_error.1 h with htext | ⟨text, -, hrole⟩
  · exact contentToText_error htext
  · split at hrole
    · cases hrole
    · split at hrole
      · cases hrole
      · cases hrole
        exact ⟨_, .inr rfl⟩

/-- A translated response always reports a usage: the tokens read off the original one, with zeros
where it has none. -/
lemma anthropicToOpenai_usage {resp out : Value} {model : String}
    (h : anthropicToOpenai resp model = .ok out) :
    ∃ u, out.get "usage" = some u ∧ u.isNull = false ∧
      u.get "prompt_tokens" = some (.ofU64 (usageTokens (resp.get "usage")).1) ∧
      u.get "completion_tokens" = some (.ofU64 (usageTokens (resp.get "usage")).2) := by
  obtain ⟨text, -, h⟩ := bind_eq_ok.1 h
  obtain rfl := Except.ok.inj h
  have hget : ∀ fields key, Value.get (.object (Map.ofFields fields)) key =
      Map.get fields.reverse key := fun fields key => Map.get_ofFields fields key
  refine ⟨_, (hget _ _).trans rfl, rfl, (hget _ _).trans rfl, (hget _ _).trans rfl⟩

/-- The total of a translated response is the `u64` sum of its two sides. -/
lemma anthropicToOpenai_total {resp out : Value} {model : String}
    (h : anthropicToOpenai resp model = .ok out) :
    ∃ u, out.get "usage" = some u ∧
      u.get "total_tokens" =
        some (.ofU64 ((usageTokens (resp.get "usage")).1 + (usageTokens (resp.get "usage")).2)) := by
  obtain ⟨text, -, h⟩ := bind_eq_ok.1 h
  obtain rfl := Except.ok.inj h
  have hget : ∀ fields key, Value.get (.object (Map.ofFields fields)) key =
      Map.get fields.reverse key := fun fields key => Map.get_ofFields fields key
  exact ⟨_, (hget _ _).trans rfl, (hget _ _).trans rfl⟩

/-- The translation fails only on requests it rejects: whatever stops it is an error of the request.
-/
theorem openaiToAnthropic_error {print : Value → String} {req : Value} {n : UInt32} {e : Error}
    (h : openaiToAnthropic print req n = .error e) : IsRejection e := by
  unfold openaiToAnthropic at h
  split at h
  · rcases bind_eq_error.1 h with htools | ⟨_, -, hrest⟩
    · exact rejectTools_error htools
    · rcases bind_eq_error.1 hrest with hloop | ⟨_, -, hend⟩
      · obtain ⟨acc, m, -, hm⟩ := foldlM_error hloop
        exact addMessage_error hm
      · cases hend
  · cases h
    exact ⟨_, .inl rfl⟩

end AnthropicMap

namespace AnthropicProvider

open AnthropicMap

variable {serde : SerdeJson} {p : AnthropicProvider} {ctx : ReqCtx} {e : Error}

lemma buildBody_error {rawBody : Bytes} {stream : Bool}
    (h : p.buildBody serde rawBody stream = .error e) : IsRejection e := by
  rcases bind_eq_error.1 h with hparse | ⟨openai, -, hrest⟩
  · obtain ⟨msg, -, rfl⟩ := mapError_eq_error.1 hparse
    exact ⟨_, .inl rfl⟩
  · rcases bind_eq_error.1 hrest with hmap | ⟨_, -, hend⟩
    · exact openaiToAnthropic_error hmap
    · cases hend

/-- An attempt that sends nothing ends with a rejection of the request, whichever method it was and
whatever the network would have answered. -/
theorem call_unsent {request : ProviderCall} {reply : UpstreamReply}
    (h : (p.call serde ctx request reply).sent = none) :
    ∃ e, (p.call serde ctx request reply).result = .error e ∧ IsRejection e := by
  cases request with
  | passthrough rawBody =>
      simp only [call, passthrough, Attempt.map] at h ⊢
      split at h
      · rename_i e he
        exact ⟨e, rfl, buildBody_error he⟩
      · cases h
  | passthroughStream rawBody =>
      simp only [call, passthroughStream, Attempt.map] at h ⊢
      split at h
      · rename_i e he
        exact ⟨e, rfl, buildBody_error he⟩
      · cases h
  | chat req =>
      simp only [call, chat, Attempt.map] at h ⊢
      split at h
      · rename_i e he
        exact ⟨e, rfl, openaiToAnthropic_error he⟩
      · cases h

lemma mapReqwestError_counts (failure : ReqwestError) :
    (mapReqwestError failure).countsAgainstBreaker = true := by
  unfold mapReqwestError
  split
  · rfl
  · split <;> rfl

/-- An attempt that sent its request and got no response ends with the transport failure, under each
of the three kinds of call. -/
theorem call_unanswered {request : ProviderCall} {failure : ReqwestError}
    (h : (p.call serde ctx request (.error failure)).sent.isSome) :
    (p.call serde ctx request (.error failure)).result = .error (mapReqwestError failure) := by
  cases request with
  | passthrough rawBody =>
      simp only [call, passthrough, Attempt.map] at h ⊢
      split at h
      · cases h
      · rfl
  | passthroughStream rawBody =>
      simp only [call, passthroughStream, Attempt.map] at h ⊢
      split at h
      · cases h
      · rfl
  | chat req =>
      simp only [call, chat, Attempt.map] at h ⊢
      split at h
      · cases h
      · rfl

/-! ## What a successful call returns -/

/-- A reply that is read holds the Messages response. -/
lemma readReply_ok {resp : UpstreamResponse} {status : UInt16} {anthropic : Json.Value}
    (h : readReply serde (.ok resp) = .ok (status, anthropic)) :
    ∃ bytes, collectBytes resp.chunks = .ok bytes ∧ serde.parse bytes = .ok anthropic := by
  obtain ⟨resp', hresp, h⟩ := bind_eq_ok.1 h
  obtain rfl : resp = resp' := Except.ok.inj hresp
  obtain ⟨_, -, h⟩ := bind_eq_ok.1 h
  obtain ⟨bytes, hbytes, h⟩ := bind_eq_ok.1 h
  obtain ⟨value, hvalue, h⟩ := bind_eq_ok.1 h
  obtain ⟨-, rfl⟩ := Prod.mk.inj (Except.ok.inj h)
  exact ⟨bytes, mapError_eq_ok.1 hbytes, mapError_eq_ok.1 hvalue⟩

/-- A successful passthrough read the usage off the reply's own key. -/
lemma passthrough_ok {rawBody : Bytes} {resp : UpstreamResponse} {raw : RawResponse}
    (h : (p.passthrough serde ctx rawBody (.ok resp)).result = .ok raw) :
    ∃ bytes anthropic, collectBytes resp.chunks = .ok bytes ∧
      serde.parse bytes = .ok anthropic ∧ raw.usage = rawUsage anthropic := by
  unfold passthrough at h
  split at h
  · cases h
  · obtain ⟨⟨status, anthropic⟩, hread, h⟩ := bind_eq_ok.1 h
    obtain ⟨openai, -, h⟩ := bind_eq_ok.1 h
    obtain rfl := Except.ok.inj h
    obtain ⟨bytes, hbytes, hparse⟩ := readReply_ok hread
    exact ⟨bytes, anthropic, hbytes, hparse, rfl⟩

/-- A successful structured call returns the translated reply, without the usage the reply does
not have. -/
lemma chat_ok {req : ChatRequest} {resp : UpstreamResponse} {response : ChatResponse}
    (h : (p.chat serde ctx req (.ok resp)).result = .ok response) :
    ∃ bytes anthropic openai chat, collectBytes resp.chunks = .ok bytes ∧
      serde.parse bytes = .ok anthropic ∧ anthropicToOpenai anthropic req.model = .ok openai ∧
      ChatResponse.fromValue openai = some chat ∧
      response = if (anthropic.get "usage").isNone then { chat with usage := none } else chat := by
  unfold AnthropicProvider.chat at h
  split at h
  · cases h
  · obtain ⟨⟨status, anthropic⟩, hread, h⟩ := bind_eq_ok.1 h
    obtain ⟨openai, hopenai, h⟩ := bind_eq_ok.1 h
    obtain ⟨bytes, hbytes, hparse⟩ := readReply_ok hread
    split at h
    · rename_i chat hchat
      exact ⟨bytes, anthropic, openai, chat, hbytes, hparse, hopenai, hchat, (Except.ok.inj h).symm⟩
    · cases h

end AnthropicProvider

end Moaray
