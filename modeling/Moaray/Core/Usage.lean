import Mathlib.Tactic

/-!
# Usage accounting types

One `UsageRecord` per accounted upstream call, with its cost.  Tokens are `i64`s and unmeasured
ones are `none`; prices and cost are in nano-USD.

* `UsagePath`, `UsageArm`, `UsageStatus` — what kind of call a row is for, and how it ended.
* `computeCost` — the cost of measured tokens under a price snapshot.
* `usageStatus` — the status of a call that succeeded.

A row is built once, when the call it is for has ended, and is never changed afterwards.  Its price
is the one the model had then: the cost is computed from a snapshot and stored, and a later change
of the configuration does not reach it.
-/

namespace Moaray

/-- Which response path produced a usage row: a relayed call, or a recipe.  The table stores its
text. -/
inductive UsagePath
  | passthrough
  | moa
  deriving DecidableEq, Repr

/-- Which arm of a request a row accounts for: the one call of a passthrough, or a proposer or the
aggregator of a recipe. -/
inductive UsageArm
  | passthrough
  | proposer
  | aggregator
  deriving DecidableEq, Repr

/-- Outcome class of one accounted upstream call: measured and priced, without a usage, without a
price, or not answered. -/
inductive UsageStatus
  | ok
  | okNoUsage
  | unpriced
  | failed
  | timeout
  deriving DecidableEq, Repr

/-- One accounted upstream call.  The fields are those of the usage table, in its order. -/
structure UsageRecord where
  requestId : String
  tsUnixMs : Int64
  path : UsagePath
  arm : UsageArm
  model : String
  upstreamId : String
  callerKeyId : String
  promptTokens : Option Int64
  completionTokens : Option Int64
  pricePromptNanoPerMtok : Option ℤ
  priceCompletionNanoPerMtok : Option ℤ
  costNanoUsd : Option ℤ
  status : UsageStatus
  deriving DecidableEq, Repr

/-- `round(tokens * price / 1e6)`, with the division of machine integers: it truncates towards zero,
and half the divisor is added before. -/
def roundDiv (tokens price : ℤ) : ℤ := (tokens * price + 1000000 / 2).tdiv 1000000

/-- The cost of raw tokens under a price snapshot; `none` if tokens or prices are absent.  One
missing side is enough for there to be no cost. -/
def computeCost (promptTokens completionTokens : Option Int64)
    (pricePrompt priceCompletion : Option ℤ) : Option ℤ := do
  let pt ← promptTokens
  let ct ← completionTokens
  let pp ← pricePrompt
  let cp ← priceCompletion
  let cost := roundDiv pt.toInt pp + roundDiv ct.toInt cp
  some (max 0 (min cost (2 ^ 63 - 1)))

/-- Map measured tokens and a price snapshot to a status.  A row counts as measured only with both
sides, and as priced only with both prices. -/
def usageStatus (pt ct : Option Int64) (priceP priceC : Option ℤ) : UsageStatus :=
  match pt.isSome && ct.isSome, priceP.isSome && priceC.isSome with
  | false, _ => .okNoUsage
  | true, true => .ok
  | true, false => .unpriced

end Moaray
