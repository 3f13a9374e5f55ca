import Moaray.Config.Runtime

/-!
# The on-disk document

The parsed YAML before validation.  The types follow the document field by field; what a field
defaults to when it is left out is the reader's business, except for the blocks that default as a
whole.

* `ServerDoc`, `KeyDoc`, `ModelDoc`, `RecipeDoc` — the blocks of the document.
* `Price` — a price as the value of a double.
* `ConfigDoc` — the document.

**Design.**  The YAML parser is not modelled, so the theorems about validation are about every
document these types can hold, whether or not a text parses into it.  A price is a double in the
source: one of the special values, or an exact rational number, which is what a finite double
stands for.
-/

namespace Moaray

open Framework

/-- A token-bucket rate limit, as it is written; `burst` defaults to `rps`. -/
structure RateLimitDoc where
  rps : UInt32
  burst : Option UInt32
  deriving DecidableEq, Repr

/-- Per-upstream circuit-breaker tuning.  The fields have defaults of their own. -/
structure BreakerDoc where
  failureThreshold : UInt32 := 5
  openMs : UInt64 := 30000
  halfOpenSuccesses : UInt32 := 1
  deriving DecidableEq, Repr

/-- Upstream retry policy.  It holds for every model of the document. -/
structure RetryDoc where
  enabled : Bool := false
  maxRetries : UInt32 := 2
  backoffMs : UInt64 := 100
  deriving DecidableEq, Repr

/-- Persistent usage-accounting store.  Without it no rows are kept. -/
structure UsageStoreDoc where
  path : String
  channelCapacity : ℕ := 8192
  batchSize : ℕ := 256
  deriving DecidableEq, Repr

/-- Server and transport knobs.  Every field has a default. -/
structure ServerDoc where
  bind : String := "0.0.0.0"
  port : UInt16 := 8080
  requestTimeoutMs : UInt64 := 120000
  maxBodyBytes : ℕ := 1024 * 1024
  shutdownGraceMs : UInt64 := 15000
  defaultMaxTokens : UInt32 := 4096
  moaExposeMetadata : Bool := false
  breaker : BreakerDoc := {}
  retry : RetryDoc := {}
  usageStore : Option UsageStoreDoc := none
  deriving DecidableEq, Repr

/-- A single inbound API key: its secret is an environment variable or a digest, of which validation
wants exactly one. -/
structure KeyDoc where
  id : String
  keyEnv : Option String
  keySha256 : Option String
  allowModels : List String
  rateLimit : Option RateLimitDoc
  deriving DecidableEq, Repr

/-- A price in USD per million tokens, as the value of the double in the document; finite doubles
are rational numbers. -/
inductive Price
  | nan
  | infinite (negative : Bool)
  | finite (usd : ℚ)
  deriving DecidableEq

/-- A configured upstream model.  Several may be of one upstream, under names of their own. -/
structure ModelDoc where
  name : String
  providerType : ProviderType
  baseUrl : String
  apiKeyEnv : String
  upstreamId : Option String
  rateLimit : Option RateLimitDoc
  maxConcurrency : Option UInt32
  pricePromptPerMtokUsd : Option Price
  priceCompletionPerMtokUsd : Option Price
  deriving DecidableEq

/-- A MoA recipe: its proposers, its aggregator, and how many proposers have to answer. -/
structure RecipeDoc where
  proposers : List String
  aggregator : String
  strategy : StrategyConfig
  armTimeoutMs : UInt64 := 60000
  quorum : ℕ
  deriving DecidableEq, Repr

/-- Root document.  Recipes are keyed by their names, and models and keys are lists. -/
structure ConfigDoc where
  server : ServerDoc := {}
  /-- `auth.keys`. -/
  keys : List KeyDoc
  models : List ModelDoc
  recipes : Table String RecipeDoc := ∅

end Moaray
