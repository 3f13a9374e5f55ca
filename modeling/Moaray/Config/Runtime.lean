import Moaray.Framework.Table

/-!
# The validated runtime descriptor

What the server actually runs: the descriptors `validate` produces from the on-disk document.
Fixed-width integers keep the width they have in the source; `usize` is a natural number.

* `ServerConfig`, `KeyConfig`, `ModelConfig`, `RecipeConfig` — what the gateway listens with, whom
  it lets in, what it can call, and how it combines what it called.
* `RuntimeConfig` — all four, models and recipes by name.
* `ModelConfig.deriveStateKey` — the identity a model is governed under.

A descriptor is read by the server on every request and is replaced as a whole by a reload; nothing
in it is changed in place.  Everything that outlives a reload, breakers, permits and buckets, is
kept elsewhere, under the state keys and key ids found here.
-/

namespace Moaray

open Framework

/-- Supported provider adapter kinds.  The kind decides on the wire format and on how usage is read.
-/
inductive ProviderType
  | openaiCompat
  | anthropic
  deriving DecidableEq, Repr

/-- The stable string form, the first component of a state key. -/
def ProviderType.asStr : ProviderType → String
  | .openaiCompat => "openai-compat"
  | .anthropic => "anthropic"

/-- The derived `Debug` form, as the reuse signature prints it. -/
def ProviderType.debug : ProviderType → String
  | .openaiCompat => "OpenaiCompat"
  | .anthropic => "Anthropic"

/-- Per-upstream circuit-breaker thresholds: failures in a row until it opens, the time it stays
open, and probe successes until it closes. -/
structure BreakerConfig where
  failureThreshold : UInt32
  openMs : UInt64
  halfOpenSuccesses : UInt32
  deriving DecidableEq, Repr

/-- Upstream retry policy: how many further attempts a call may make, and the delay the waits
between them are computed from. -/
structure RetryConfig where
  enabled : Bool
  maxRetries : UInt32
  backoffMs : UInt64
  deriving DecidableEq, Repr

/-- A token-bucket rate limit: sustained `rps` and `burst` capacity.  The bucket starts full.
Validation sees to it that the burst is at least the rate. -/
structure RateLimit where
  rps : UInt32
  burst : UInt32
  deriving DecidableEq, Repr

/-- Persistent usage-store config: where the rows are kept, how many may wait, and how many go into
one transaction. -/
structure UsageStoreConfig where
  path : String
  channelCapacity : ℕ
  batchSize : ℕ
  deriving DecidableEq, Repr

/-- Server knobs.  Some of them are read once, when the process starts, and others at each request.
-/
structure ServerConfig where
  bind : String
  port : UInt16
  requestTimeoutMs : UInt64
  maxBodyBytes : ℕ
  shutdownGraceMs : UInt64
  defaultMaxTokens : UInt32
  moaExposeMetadata : Bool
  breaker : BreakerConfig
  retry : RetryConfig
  usageStore : Option UsageStoreConfig
  deriving DecidableEq, Repr

/-- How a key's secret is verified: against a plaintext, or by its digest.  The plaintext comes from
the environment. -/
inductive KeySecret
  /-- Plaintext resolved from the environment. -/
  | plain (secret : String)
  /-- Hex SHA-256 of the plaintext. -/
  | sha256 (digest : String)
  deriving DecidableEq, Repr

/-- A validated inbound key: its secret, the models and recipes it may ask for, and its limit. -/
structure KeyConfig where
  id : String
  secret : KeySecret
  allowModels : List String
  rateLimit : Option RateLimit
  deriving DecidableEq, Repr

/-- A validated upstream model: where it is, whose account it is called with, and how it is
governed. -/
structure ModelConfig where
  name : String
  providerType : ProviderType
  baseUrl : String
  apiKeyEnv : String
  /-- The upstream identity `provider_type|base_url|api_key_env`; it keys the per-upstream
  limiter, semaphore and breaker. -/
  stateKey : String
  /-- The observability label; it keys no state. -/
  upstreamId : String
  rateLimit : Option RateLimit
  maxConcurrency : Option UInt32
  pricePromptNanoPerMtok : Option ℤ
  priceCompletionNanoPerMtok : Option ℤ
  deriving DecidableEq, Repr

/-- Build the internal state key from the identity triple.  The parts are joined as they are, so a
bar inside one of them reads like the bar between two. -/
def ModelConfig.deriveStateKey (providerType : ProviderType) (baseUrl apiKeyEnv : String) :
    String :=
  providerType.asStr ++ "|" ++ baseUrl ++ "|" ++ apiKeyEnv

/-- MoA fusion strategy, as the configuration names it; it selects the instruction the aggregator
gets. -/
inductive StrategyConfig
  | concatSynthesize
  | quorumJudge
  deriving DecidableEq, Repr

/-- A validated MoA recipe: its proposers in order, the model that aggregates, and how many
proposers are enough. -/
structure RecipeConfig where
  name : String
  proposers : List String
  aggregator : String
  strategy : StrategyConfig
  armTimeoutMs : UInt64
  quorum : ℕ
  deriving DecidableEq, Repr

/-- Top-level validated runtime config.  It is replaced as a whole. -/
structure RuntimeConfig where
  server : ServerConfig
  keys : List KeyConfig
  models : Table String ModelConfig
  recipes : Table String RecipeConfig

end Moaray
