import Mathlib.Tactic

/-!
# The gateway's error model

The canonical `Error` of the whole gateway, the two classifications the protection layer gates on,
and the envelope a client sees.

* `isRetryable` — which errors may be tried again.
* `countsAgainstBreaker` — which count as an upstream-health failure against the per-upstream
  circuit breaker.
* `envelope` — status, type, code and message; `envelope_status`: always a client or a server
  error.

An error is made by an adapter, by the layer that guards an upstream, or by the handler, and is
passed up unchanged.  The two classifications are functions of the variant alone, so a provider
says by the choice of a variant whether its failure may be retried and whether it tells against the
upstream.  `Unsupported`, for a request the adapter cannot translate, is neither: the upstream was
never asked.
-/

namespace Moaray

/-- Canonical error for the whole gateway.  Variants carry only non-secret context: names the caller
sent, and names of upstreams that the operator chose. -/
inductive Error
  /-- Missing or malformed bearer token. -/
  | invalidApiKey
  /-- Authenticated, but the model is not in the caller's allowlist. -/
  | modelNotAllowed (model : String)
  /-- Model name maps to no configured route. -/
  | modelNotFound (model : String)
  /-- Inbound body exceeded the configured limit. -/
  | payloadTooLarge
  /-- Inbound JSON could not be parsed. -/
  | badRequest (message : String)
  /-- Upstream did not answer within the deadline. -/
  | upstreamTimeout
  /-- Upstream returned a server-class status, or failed after the request was sent. -/
  | upstreamError
  /-- Upstream returned a client-class status. -/
  | upstreamClientError
  /-- Upstream returned 429. -/
  | upstreamRateLimited
  /-- The connection failed before the request was sent. -/
  | upstreamUnavailable
  /-- The gateway's own per-key or per-upstream limiter rejected the request. -/
  | rateLimited
  /-- The per-upstream circuit breaker is open. -/
  | circuitOpen
  /-- A capability the structured path does not support. -/
  | unsupported (message : String)
  /-- MoA mode does not stream. -/
  | moaStreamingUnsupported
  /-- Too few proposer arms succeeded to meet the recipe quorum. -/
  | moaQuorumFailed (succeeded required : ℕ)
  /-- Anything else. -/
  | internal
  deriving DecidableEq, Repr

namespace Error

/-- Only a connection failure before the request was sent is retry-safe: after any other error the
upstream may have done the work. -/
def isRetryable : Error → Bool
  | .upstreamUnavailable => true
  | _ => false

/-- Whether the error is an upstream-health failure: a 5xx, a timeout or a connect failure. -/
def countsAgainstBreaker : Error → Bool
  | .upstreamError | .upstreamTimeout | .upstreamUnavailable => true
  | _ => false

end Error

/-- Client-facing rendering of an error: the status, and the three texts of its body. -/
structure ErrorEnvelope where
  status : UInt16
  errorType : String
  code : String
  message : String
  deriving DecidableEq, Repr

namespace Error

def typeInvalidRequest : String := "invalid_request_error"

def typeApiError : String := "api_error"

def typeRateLimit : String := "rate_limit_error"

def display : Error → String
  | .invalidApiKey => "missing or invalid API key"
  | .modelNotAllowed model => "model `" ++ model ++ "` is not allowed for this key"
  | .modelNotFound model => "model `" ++ model ++ "` not found"
  | .payloadTooLarge => "request body too large"
  | .badRequest message => "invalid request: " ++ message
  | .upstreamTimeout => "upstream request timed out"
  | .upstreamError => "upstream returned an error"
  | .upstreamClientError => "upstream returned a client error"
  | .upstreamRateLimited => "upstream rate limited"
  | .upstreamUnavailable => "upstream unavailable"
  | .rateLimited => "rate limit exceeded"
  | .circuitOpen => "upstream circuit breaker is open"
  | .unsupported message => "unsupported: " ++ message
  | .moaStreamingUnsupported => "MoA mode does not support streaming responses"
  | .moaQuorumFailed succeeded required =>
      "MoA quorum not met: " ++ toString succeeded ++ "/" ++ toString required ++
        " proposer arms succeeded"
  | .internal => "internal error"

/-- The error-code matrix: the status, type and code of each variant, with its text as the message.
-/
def envelope (e : Error) : ErrorEnvelope :=
  let (status, errorType, code) : UInt16 × String × String :=
    match e with
    | .invalidApiKey => (401, typeInvalidRequest, "invalid_api_key")
    | .modelNotAllowed _ => (403, typeInvalidRequest, "model_not_allowed")
    | .modelNotFound _ => (404, typeInvalidRequest, "model_not_found")
    | .payloadTooLarge => (413, typeInvalidRequest, "payload_too_large")
    | .badRequest _ => (400, typeInvalidRequest, "invalid_request")
    | .upstreamTimeout => (504, typeApiError, "upstream_timeout")
    | .upstreamError => (502, typeApiError, "upstream_error")
    | .upstreamClientError => (502, typeApiError, "upstream_error")
    | .upstreamRateLimited => (429, typeRateLimit, "upstream_rate_limited")
    | .upstreamUnavailable => (502, typeApiError, "upstream_error")
    | .rateLimited => (429, typeRateLimit, "rate_limited")
    | .circuitOpen => (503, typeApiError, "circuit_open")
    | .unsupported _ => (400, typeInvalidRequest, "unsupported")
    | .moaStreamingUnsupported => (400, typeInvalidRequest, "moa_streaming_unsupported")
    | .moaQuorumFailed _ _ => (503, typeApiError, "moa_quorum_failed")
    | .internal => (500, typeApiError, "internal_error")
  { status, errorType, code, message := e.display }

/-- Every error is rendered as a client or a server error. -/
lemma envelope_status (e : Error) : 400 ≤ e.envelope.status ∧ e.envelope.status < 600 := by
  cases e <;> simp [envelope]

end Error

end Moaray
