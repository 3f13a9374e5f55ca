import Moaray.Core.Provider
import Moaray.Framework.SortByKey
import Moaray.Moa.Strategy
import Moaray.Moa.Usage

/-!
# The MoA orchestrator

Parallel fan-out, quorum, aggregation.  What a provider does with a call is a `Reply`: how long it
takes, if it ever ends, and what it ends with; local computation takes no time.  The arms run side
by side, and the order in which their results are collected is any permutation.

* `runArm`, `fanOut` — the proposer arms, each under its own timeout.
* `conclude` — from the end of the fan-out on: quorum, aggregator, usage.
* `run` — a recipe end to end, with the calls it makes.
* `Verdict` — what became of one call; `arm_eq` reads an arm off its verdict.
* `collectArms_of_perm` — collecting the arms forgets the order they finished in.

The source starts a task for each proposer and collects them as they finish, then sorts them back
into the order of the recipe by their index.  The index is what makes the collection independent of
time: `pairwise_fanOut` says that it increases along the recipe, and so sorting undoes any
permutation (`collectArms_fanOut`).

**Design.**  Concurrency appears in two places only: the time of the fan-out is that of its slowest
arm, and `CompletionOrder` is an arbitrary permutation of the finished arms.  Everything else is a
function of the verdicts on the calls.  A `Reply` may depend on the call in any way, on its site
and its context too, so two arms that ask one model may be answered differently.

An answer and its latency are kept apart from the start: `armVerdict` and `armElapsed` are two
functions, and what a run returns depends on the second only through timeouts and the latencies it
reports.
-/

namespace Moaray

open Framework Json

namespace Moa

/-- Outcome class of a single arm; only the first makes the quorum.  A timeout is told apart from an
error. -/
inductive ArmStatus
  | ok
  | timeout
  | error
  deriving DecidableEq, Repr

/-- Per-arm metadata for metrics and accounting.  It says how the arm ended and not what was said.
-/
structure ArmOutcome where
  model : String
  upstreamId : String
  latencyMs : UInt64
  status : ArmStatus
  usagePresent : Bool
  promptTokens : Option Int64
  completionTokens : Option Int64
  deriving DecidableEq, Repr

/-- The full result of a run: every arm outcome, and what is rendered or reported.  A run that fails
still has the outcomes of its arms. -/
structure MoaRun where
  proposers : List ArmOutcome
  aggregator : Option ArmOutcome
  outcome : Except Error ChatResponse

/-- A finished arm, with its index in the recipe, by which it is put back in order.  The answer is
kept apart from what is booked. -/
structure ArmRun where
  idx : ℕ
  outcome : ArmOutcome
  response : Option ChatResponse

/-! ## Upstreams -/

/-- Where in a run a provider is called: at a proposer's index, or as the aggregator.  One model may
be called at several places. -/
inductive Site
  | proposer (idx : ℕ)
  | aggregator
  deriving DecidableEq, Repr

/-- One call of a provider's `chat`: where in the run it is made, and what it brings. -/
structure ChatCall (π : Type) where
  site : Site
  provider : π
  ctx : ReqCtx
  request : ChatRequest

/-- What a provider does with a call: how long it takes (`none` when it never ends), and what
it ends with. -/
structure Reply where
  delay : Option ℕ
  result : Except Error ChatResponse

/-- The providers as the orchestrator sees them: a stable id, and what they do with a call.  A delay
of `none` is a call that never ends. -/
structure Upstreams (π : Type) where
  upstreamId : π → String
  chat : ChatCall π → Reply

/-- `tokio::time::timeout`: the result, unless the budget runs out first, and the time taken.  A
result that is there at the last moment still counts, as the future is polled before the timer. -/
def timeout (budget : ℕ) (reply : Reply) : Option (Except Error ChatResponse) × ℕ :=
  match reply.delay with
  | some d => if d ≤ budget then (some reply.result, d) else (none, budget)
  | none => (none, budget)

/-- The smaller of the recipe's budget and the time left on the request deadline. -/
def effectiveTimeout (deadline now : Instant) (armTimeoutMs : UInt64) : ℕ :=
  min (durationFromMillis armTimeoutMs) (deadline.durationSince now)

/-- `as_millis() as u64`. -/
def asMillis (elapsed : ℕ) : UInt64 := UInt64.ofNat (elapsed / 1000000)

/-! ## Requests and responses -/

/-- A proposer's request: the original one retargeted, not streaming. -/
def armRequest (original : ChatRequest) (model : String) : ChatRequest :=
  { original with model, stream := some false }

/-- The assistant text of a response: its first choice. -/
def extractText (serde : SerdeJson) (resp : ChatResponse) : String :=
  let content := do
    let choice ← resp.choices.head?
    let message ← choice.get "message"
    message.get "content"
  (content.map (valueToText serde)).getD ""

/-! ## The arms -/

section Arms

variable {π : Type} (U : Upstreams π)

/-- Run one arm to completion or timeout, with the time it takes. -/
def runArm (provider : Option π) (ctx : ReqCtx) (req : ChatRequest) (model : String) (idx : ℕ)
    (budget : ℕ) : ArmRun × ℕ :=
  match provider with
  | none =>
      ({ idx
         outcome :=
           { model, upstreamId := model, latencyMs := 0, status := .error, usagePresent := false,
             promptTokens := none, completionTokens := none }
         response := none }, 0)
  | some p =>
      let (result, elapsed) :=
        timeout budget (U.chat { site := .proposer idx, provider := p, ctx, request := req })
      let outcome : ArmOutcome :=
        { model, upstreamId := U.upstreamId p, latencyMs := asMillis elapsed, status := .error,
          usagePresent := false, promptTokens := none, completionTokens := none }
      match result with
      | none => ({ idx, outcome := { outcome with status := .timeout }, response := none }, elapsed)
      | some (.ok resp) =>
          let (promptTokens, completionTokens) := extractTokens resp.usage
          ({ idx
             outcome :=
               { outcome with
                 status := .ok
                 usagePresent := resp.usage.isSome
                 promptTokens
                 completionTokens }
             response := some resp }, elapsed)
      | some (.error _) => ({ idx, outcome, response := none }, elapsed)

variable (o : Orchestrator π) (ctx : ReqCtx) (now : Instant) (recipe : Recipe)
  (request : ChatRequest)

/-- The arm of one proposer, given with its index. -/
def arm (row : String × ℕ) : ArmRun × ℕ :=
  runArm U (o.resolve row.1) ctx (armRequest request row.1) row.1 row.2
    (effectiveTimeout ctx.deadline now recipe.armTimeoutMs)

/-- All arms, in recipe order. -/
def fanOut : List (ArmRun × ℕ) := recipe.proposers.zipIdx.map (arm U o ctx now recipe request)

/-- The fan-out ends with its last arm. -/
def fanOutTime : ℕ := ((fanOut U o ctx now recipe request).map Prod.snd).foldr max 0

/-- The call an arm makes, if its proposer resolves. -/
def armCall (row : String × ℕ) : Option (ChatCall π) :=
  (o.resolve row.1).map fun p =>
    { site := .proposer row.2, provider := p, ctx, request := armRequest request row.1 }

/-- The calls of the fan-out. -/
def fanOutCalls : List (ChatCall π) :=
  recipe.proposers.zipIdx.filterMap (armCall o ctx request)

end Arms

/-! ## The run -/

/-- The order in which the finished arms are yielded: any permutation of them.  The clock does not
decide it, since arms may finish together. -/
structure CompletionOrder where
  order : List ArmRun → List ArmRun
  perm : ∀ arms, (order arms).Perm arms

/-- Outcomes and successes of the finished arms, each sorted back into recipe order. -/
def collectArms (arms : List ArmRun) : List ArmOutcome × List ChatResponse :=
  let outcomesIdx := arms.map fun a => (a.idx, a.outcome)
  let successes := arms.filterMap fun a => a.response.map fun resp => (a.idx, resp)
  ((sortByKey Prod.fst outcomesIdx).map Prod.snd, (sortByKey Prod.fst successes).map Prod.snd)

section Run

variable {π : Type} (U : Upstreams π) (serde : SerdeJson) (o : Orchestrator π) (ctx : ReqCtx)

/-- A run from the end of the fan-out on: quorum, aggregation, usage. -/
def conclude (now : Instant) (recipe : Recipe) (request : ChatRequest)
    (proposers : List ArmOutcome) (successes : List ChatResponse) :
    MoaRun × List (ChatCall π) :=
  let succeeded := successes.length
  if succeeded < recipe.quorum then
    ({ proposers, aggregator := none,
       outcome := .error (.moaQuorumFailed succeeded recipe.quorum) }, [])
  else
    let aggReq :=
      buildAggregatorRequest serde recipe request (successes.map (extractText serde))
    match o.resolve recipe.aggregator with
    | none => ({ proposers, aggregator := none, outcome := .error .internal }, [])
    | some p =>
        let budget := effectiveTimeout ctx.deadline now recipe.armTimeoutMs
        let call : ChatCall π := { site := .aggregator, provider := p, ctx, request := aggReq }
        let (result, elapsed) := timeout budget (U.chat call)
        let failed : ArmOutcome :=
          { model := recipe.aggregator, upstreamId := U.upstreamId p,
            latencyMs := asMillis elapsed, status := .error, usagePresent := false,
            promptTokens := none, completionTokens := none }
        match result with
        | none =>
            ({ proposers, aggregator := some { failed with status := .timeout },
               outcome := .error .upstreamTimeout }, [call])
        | some (.error e) =>
            ({ proposers, aggregator := some failed, outcome := .error e }, [call])
        | some (.ok resp) =>
            let (promptTokens, completionTokens) := extractTokens resp.usage
            let aggregator : ArmOutcome :=
              { failed with
                status := .ok
                usagePresent := resp.usage.isSome
                promptTokens
                completionTokens }
            let usages := successes.filterMap ChatResponse.usage ++ resp.usage.toList
            ({ proposers, aggregator := some aggregator,
               outcome :=
                 .ok { resp with model := some ctx.model, usage := some (sumUsage usages) } },
             [call])

/-- Execute a recipe end to end, from `now` on; the second component lists the calls made. -/
def run (completion : CompletionOrder) (now : Instant) (recipeName : String)
    (request : ChatRequest) : Except Error MoaRun × List (ChatCall π) :=
  match o.recipe recipeName with
  | none => (.error (.modelNotFound ("moa/" ++ recipeName)), [])
  | some recipe =>
      let arms := completion.order ((fanOut U o ctx now recipe request).map Prod.fst)
      let (proposers, successes) := collectArms arms
      let (moa, calls) :=
        conclude U serde o ctx (now + fanOutTime U o ctx now recipe request) recipe request
          proposers successes
      (.ok moa, fanOutCalls o ctx recipe request ++ calls)

end Run

/-! ## Verdicts -/

/-- What became of one call of a provider: its provider did not resolve, its budget ran out, or it
ended in time with an error or an answer. -/
inductive Verdict
  | unresolved
  | timedOut
  | failed (e : Error)
  | answered (resp : ChatResponse)

namespace Verdict

/-- The class it is recorded as. -/
def status : Verdict → ArmStatus
  | .unresolved | .failed _ => .error
  | .timedOut => .timeout
  | .answered _ => .ok

/-- The response, if there was one. -/
def response : Verdict → Option ChatResponse
  | .answered resp => some resp
  | _ => none

/-- The usage it reports. -/
def usage (v : Verdict) : Option Value := v.response.bind ChatResponse.usage

/-- What the aggregator's verdict means for the run. -/
def outcome : Verdict → Except Error ChatResponse
  | .unresolved => .error .internal
  | .timedOut => .error .upstreamTimeout
  | .failed e => .error e
  | .answered resp => .ok resp

end Verdict

section Verdicts

variable {π : Type} (U : Upstreams π)

/-- The verdict on a call under a budget. -/
def verdict (budget : ℕ) (call : Option (ChatCall π)) : Verdict :=
  match call with
  | none => .unresolved
  | some c =>
      match (timeout budget (U.chat c)).1 with
      | none => .timedOut
      | some (.ok resp) => .answered resp
      | some (.error e) => .failed e

lemma verdict_none (budget : ℕ) : verdict U budget none = .unresolved := rfl

def outcomeOf (model upstreamId : String) (latencyMs : UInt64) (v : Verdict) : ArmOutcome where
  model := model
  upstreamId := upstreamId
  latencyMs := latencyMs
  status := v.status
  usagePresent := v.usage.isSome
  promptTokens := (extractTokens v.usage).1
  completionTokens := (extractTokens v.usage).2

/-- The time a call takes under a budget. -/
def elapsed (budget : ℕ) (call : Option (ChatCall π)) : ℕ :=
  match call with
  | none => 0
  | some c => (timeout budget (U.chat c)).2

variable (o : Orchestrator π) (ctx : ReqCtx) (now : Instant) (recipe : Recipe)
  (request : ChatRequest)

/-- The stable id an arm is recorded under: the model's own name when nothing resolves. -/
def upstreamIdOf (model : String) : String :=
  ((o.resolve model).map U.upstreamId).getD model

/-- The verdict on the arm of one proposer. -/
def armVerdict (row : String × ℕ) : Verdict :=
  verdict U (effectiveTimeout ctx.deadline now recipe.armTimeoutMs) (armCall o ctx request row)

/-- The time the call of an arm takes, under its timeout. -/
def armElapsed (row : String × ℕ) : ℕ :=
  elapsed U (effectiveTimeout ctx.deadline now recipe.armTimeoutMs) (armCall o ctx request row)

/-- An arm is what its verdict says, and takes the time its call takes. -/
lemma arm_eq (row : String × ℕ) :
    arm U o ctx now recipe request row =
      ({ idx := row.2
         outcome :=
           outcomeOf row.1 (upstreamIdOf U o row.1)
             (asMillis (armElapsed U o ctx now recipe request row))
             (armVerdict U o ctx now recipe request row)
         response := (armVerdict U o ctx now recipe request row).response },
        armElapsed U o ctx now recipe request row) := by
  unfold arm runArm armVerdict armElapsed armCall upstreamIdOf
  cases o.resolve row.1 with
  | none =>
      simp [verdict, elapsed, outcomeOf, extractTokens, Verdict.status, Verdict.usage,
        Verdict.response, asMillis]
  | some p =>
      simp only [Option.map_some, verdict, elapsed, Option.getD_some]
      rcases timeout _ _ with ⟨_ | _ | _, _⟩ <;> rfl

end Verdicts

/-! ## Collecting the arms -/

lemma collectArms_of_perm {arms runs : List ArmRun} (hperm : arms.Perm runs)
    (hidx : runs.Pairwise fun a b => a.idx < b.idx) :
    collectArms arms = (runs.map ArmRun.outcome, runs.filterMap ArmRun.response) := by
  let pair := fun a : ArmRun => (a.idx, a.outcome)
  let success := fun a : ArmRun => a.response.map fun resp => (a.idx, resp)
  have houtcomes : sortByKey Prod.fst (arms.map pair) = runs.map pair :=
    sortByKey_of_perm (hperm.map pair) (List.pairwise_map.2 hidx)
  have hpairs : (runs.filterMap success).Pairwise fun a b => a.1 < b.1 := by
    refine hidx.filterMap success ?_
    intro a b hab x hx y hy
    obtain ⟨_, -, rfl⟩ := Option.map_eq_some_iff.1 hx
    obtain ⟨_, -, rfl⟩ := Option.map_eq_some_iff.1 hy
    exact hab
  have hsuccesses : sortByKey Prod.fst (arms.filterMap success) = runs.filterMap success :=
    sortByKey_of_perm (hperm.filterMap success) hpairs
  unfold collectArms
  refine Prod.ext ?_ ?_
  · show (sortByKey Prod.fst (arms.map pair)).map Prod.snd = _
    rw [houtcomes, List.map_map]
    rfl
  · show (sortByKey Prod.fst (arms.filterMap success)).map Prod.snd = _
    rw [hsuccesses, List.map_filterMap]
    congr 1
    funext a
    cases h : a.response <;> simp [success, h]

section FanOut

variable {π : Type} (U : Upstreams π) (o : Orchestrator π) (ctx : ReqCtx) (now : Instant)
  (recipe : Recipe) (request : ChatRequest)

/-- The outcomes of the proposers, in recipe order. -/
def proposerOutcomes : List ArmOutcome :=
  recipe.proposers.zipIdx.map fun row =>
    outcomeOf row.1 (upstreamIdOf U o row.1) (asMillis (armElapsed U o ctx now recipe request row))
      (armVerdict U o ctx now recipe request row)

/-- The answers of the proposers, in recipe order. -/
def answers : List ChatResponse :=
  recipe.proposers.zipIdx.filterMap fun row =>
    (armVerdict U o ctx now recipe request row).response

/-- The finished arms are in recipe order by their indices. -/
lemma pairwise_fanOut :
    ((fanOut U o ctx now recipe request).map Prod.fst).Pairwise fun a b => a.idx < b.idx := by
  have hidx : ((fanOut U o ctx now recipe request).map Prod.fst).map ArmRun.idx =
      List.range' 0 recipe.proposers.length := by
    rw [fanOut, List.map_map, List.map_map, ← List.zipIdx_map_snd]
    refine List.map_congr_left ?_
    intro row _
    simp [arm_eq]
  have hlt : (((fanOut U o ctx now recipe request).map Prod.fst).map ArmRun.idx).Pairwise
      fun i j => i < j := by
    rw [hidx]
    exact List.pairwise_lt_range'
  exact List.pairwise_map.1 hlt

/-- Whatever order the arms finish in, they are collected in recipe order. -/
lemma collectArms_fanOut (completion : CompletionOrder) :
    collectArms (completion.order ((fanOut U o ctx now recipe request).map Prod.fst)) =
      (proposerOutcomes U o ctx now recipe request, answers U o ctx now recipe request) := by
  rw [collectArms_of_perm (completion.perm _) (pairwise_fanOut U o ctx now recipe request)]
  refine Prod.ext ?_ ?_
  · show ((fanOut U o ctx now recipe request).map Prod.fst).map ArmRun.outcome = _
    rw [fanOut, List.map_map, List.map_map]
    apply List.map_congr_left
    intro row _
    simp [arm_eq]
  · show ((fanOut U o ctx now recipe request).map Prod.fst).filterMap ArmRun.response = _
    rw [fanOut, List.map_map, List.filterMap_map]
    apply List.filterMap_congr
    intro row _
    simp [arm_eq]

end FanOut

end Moa

end Moaray
