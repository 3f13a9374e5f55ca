import Moaray.Core.Error
import Moaray.Core.Types

/-!
# The provider interface

What a call brings to an upstream provider and what it gets back.

* `Instant`, `durationSince` — the monotonic clock, in nanoseconds.
* `ReqCtx` — what every call carries, the deadline of its request among it.
* `ReqwestError`, `Chunks` — a transport failure, and the chunks of a body up to one.
* `ByteStream`, `RawResponse` — a response as a provider hands it on.

**Design.**  A response body is a stream that nobody has polled yet, so it is described by what it
will relay: one chunk that was collected, the upstream's chunks as they come, or their translation.
An arbitrary list of chunks with a failure at some point stands for any upstream and any network in
front of it.
-/

namespace Moaray

/-- A reading of the monotonic clock, in nanoseconds. -/
abbrev Instant := ℕ

/-- The time from `earlier` to `now`, zero when the clock was read out of order. -/
def Instant.durationSince (now earlier : Instant) : ℕ := now - earlier

/-- A span of milliseconds, in nanoseconds. -/
def durationFromMillis (ms : UInt64) : ℕ := ms.toNat * 1000000

/-- Per-request context threaded through every provider call: whose request it is, and when it has
to be answered. -/
structure ReqCtx where
  requestId : String
  deadline : Instant
  callerKeyId : String
  model : String
  deriving DecidableEq, Repr

/-- A transport-level failure of the HTTP client, by the flags the gateway reads off it. -/
structure ReqwestError where
  isTimeout : Bool
  isConnect : Bool
  deriving DecidableEq, Repr

/-- The chunks of a response body, up to and including the first failure.  A body that was relayed
in full has none. -/
abbrev Chunks := List (Except ReqwestError Bytes)

/-- A response body that has not been polled, by what it is going to relay: one chunk that is there,
the upstream's as they come, or their translation. -/
inductive ByteStream
  /-- One chunk. -/
  | once (body : Bytes)
  /-- The upstream's chunks as they come. -/
  | relay (chunks : Chunks)
  /-- The upstream's event stream, translated into frames for `model`. -/
  | translated (model : String) (chunks : Chunks)

/-- A raw passthrough response: what of it is sent on, and the tokens read off it on the way. -/
structure RawResponse where
  status : UInt16
  contentType : Option String
  body : ByteStream
  /-- The `(prompt, completion)` tokens tapped off a non-streaming response. -/
  usage : Option (Int64 × Int64)

end Moaray
