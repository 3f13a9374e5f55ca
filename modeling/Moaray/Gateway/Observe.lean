import Mathlib.Tactic

/-!
# Request metrics

The counters and histograms a request touches, in the order it touches them.  What a histogram is
given is the time a request took and is left out.

* `Metric` — one increment or observation, with its labels.
* `recordRequest`, `recordRejection` — one request, counted under its path.
* `recordMoaArm` — one arm of a MoA run.

A counter is not modelled as a number but as the increments that were made.  Which requests an
increment belongs to, and how many there are with some labels, is then a question about a list.
-/

namespace Moaray

/-- Bucket an HTTP status.  What is below 100 or above 499 counts as a server error. -/
def statusClass (status : UInt16) : String :=
  if 100 ≤ status ∧ status ≤ 199 then "1xx"
  else if 200 ≤ status ∧ status ≤ 299 then "2xx"
  else if 300 ≤ status ∧ status ≤ 399 then "3xx"
  else if 400 ≤ status ∧ status ≤ 499 then "4xx"
  else "5xx"

/-- Which gateway path served a request, as the label of its counters says.  There are three such
labels. -/
inductive RequestPath
  | passthrough
  | moa
  /-- Rejected before a path was chosen. -/
  | preRouting
  deriving DecidableEq, Repr

def RequestPath.asStr : RequestPath → String
  | .passthrough => "passthrough"
  | .moa => "moa"
  | .preRouting => "pre_routing"

/-- One increment of a counter, or one observation of a histogram, with its labels.  What is
observed is a duration, which is left out. -/
inductive Metric
  | requestsTotal (path model statusClass : String)
  | errorsTotal (path model statusClass : String)
  | requestDuration (path model : String)
  | moaArmTotal (model upstreamId statusClass : String)
  | moaArmDuration (model upstreamId : String)
  | usageUnpricedTotal
  | usageUnaccountedStreamTotal
  deriving DecidableEq, Repr

/-- The request counter, and with an error status the error counter, under the same labels. -/
def countRequest (path model : String) (status : UInt16) : List Metric :=
  .requestsTotal path model (statusClass status) ::
    if 400 ≤ status then [.errorsTotal path model (statusClass status)] else []

/-- Record one request's outcome. -/
def recordRequest (path : RequestPath) (model : String) (status : UInt16) : List Metric :=
  countRequest path.asStr model status ++ [.requestDuration path.asStr model]

/-- Record a request rejected before routing; its model is not validated and is no label. -/
def recordRejection (status : UInt16) : List Metric :=
  countRequest RequestPath.preRouting.asStr "_pre_routing" status

/-- Record one MoA arm's outcome. -/
def recordMoaArm (model upstreamId statusClass : String) : List Metric :=
  [.moaArmTotal model upstreamId statusClass, .moaArmDuration model upstreamId]

end Moaray
