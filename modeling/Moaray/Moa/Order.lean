import Moaray.Moa.RunSpec

/-!
# The order in which arms finish

Two runs of a recipe in which every arm comes to the same result make the same calls and return the
same thing, latencies aside: neither how long the arms take nor the order in which they are
collected shows.

* `SameResults` — two ways the providers may behave that give every call the same result.
* `completion_order_irrelevant` — they are indistinguishable in what the run returns.
* `completion_order_irrelevant_twice` — a recipe that asks one model twice, with the arms finishing
  one way round and the other.

The proof follows the run from its arms to its answer.  Every quantity the run is made of, the
answers of the proposers, their usages, the number of successes, the aggregator's call, its verdict
and the rendered completion, is the same under both behaviours; one lemma for each, in this order.

**Design.**  Time is allowed to differ everywhere, and that is the point; but a timeout makes time
show.  `SameResults` therefore compares verdicts, which already say whether a call was in time, and
asks of the aggregator that it comes to the same result whatever it is asked, under the two budgets
the fan-outs leave it.
-/

namespace Moaray

open Framework Json

namespace Moa

def ArmOutcome.eraseLatency (a : ArmOutcome) : ArmOutcome := { a with latencyMs := 0 }

def MoaRun.eraseLatency (moa : MoaRun) : MoaRun :=
  { moa with
    proposers := moa.proposers.map ArmOutcome.eraseLatency
    aggregator := moa.aggregator.map ArmOutcome.eraseLatency }

lemma eraseLatency_outcomeOf (model upstreamId : String) (latencyMs : UInt64) (v : Verdict) :
    (outcomeOf model upstreamId latencyMs v).eraseLatency = outcomeOf model upstreamId 0 v := rfl

section Order

variable {π : Type} (U V : Upstreams π) (serde : SerdeJson) (o : Orchestrator π) (ctx : ReqCtx)
  (now : Instant) (recipe : Recipe) (request : ChatRequest)

/-- Every arm, and the aggregator whatever it is asked, comes to the same result under `U` and
under `V`; how long that takes may differ. -/
structure SameResults : Prop where
  upstreamId : U.upstreamId = V.upstreamId
  arms :
    ∀ row ∈ recipe.proposers.zipIdx,
      armVerdict U o ctx now recipe request row = armVerdict V o ctx now recipe request row
  aggregator :
    ∀ call : ChatCall π, call.site = .aggregator →
      verdict U (aggregatorBudget U o ctx now recipe request) (some call) =
        verdict V (aggregatorBudget V o ctx now recipe request) (some call)

variable {U V serde o ctx now recipe request}

namespace SameResults

variable (h : SameResults U V o ctx now recipe request)

include h

lemma answers_eq :
    answers U o ctx now recipe request = answers V o ctx now recipe request := by
  apply List.filterMap_congr
  intro row hrow
  rw [h.arms row hrow]

lemma proposerUsages_eq :
    proposerUsages U o ctx now recipe request = proposerUsages V o ctx now recipe request := by
  rw [← usages_answers, ← usages_answers, h.answers_eq]

lemma succeeded_eq :
    succeeded U o ctx now recipe request = succeeded V o ctx now recipe request := by
  rw [← length_answers, ← length_answers, h.answers_eq]

lemma proposerOutcomes_eq :
    (proposerOutcomes U o ctx now recipe request).map ArmOutcome.eraseLatency =
      (proposerOutcomes V o ctx now recipe request).map ArmOutcome.eraseLatency := by
  unfold proposerOutcomes
  rw [List.map_map, List.map_map]
  apply List.map_congr_left
  intro row hrow
  simp only [Function.comp_apply, eraseLatency_outcomeOf, upstreamIdOf, h.upstreamId,
    h.arms row hrow]

lemma aggregatorCall_eq :
    aggregatorCall U serde o ctx now recipe request =
      aggregatorCall V serde o ctx now recipe request := by
  unfold aggregatorCall
  rw [h.answers_eq]

lemma aggregatorVerdict_eq :
    aggregatorVerdict U serde o ctx now recipe request =
      aggregatorVerdict V serde o ctx now recipe request := by
  unfold aggregatorVerdict
  rw [← h.aggregatorCall_eq]
  cases hcall : aggregatorCall U serde o ctx now recipe request with
  | none => rw [verdict_none, verdict_none]
  | some call =>
      exact h.aggregator call (site_aggregatorCall U serde o ctx now recipe request hcall)

lemma aggregatorOutcome_eq :
    (aggregatorOutcome U serde o ctx now recipe request).map ArmOutcome.eraseLatency =
      (aggregatorOutcome V serde o ctx now recipe request).map ArmOutcome.eraseLatency := by
  unfold aggregatorOutcome
  rw [h.aggregatorCall_eq, h.aggregatorVerdict_eq, h.upstreamId]
  cases aggregatorCall V serde o ctx now recipe request with
  | none => simp only [Option.map_none]
  | some call => simp only [Option.map_some, eraseLatency_outcomeOf]

lemma rendered_eq : rendered U o ctx now recipe request = rendered V o ctx now recipe request := by
  funext answer
  unfold rendered
  rw [h.proposerUsages_eq]

variable (serde) in
/-- What follows the fan-out is the same, latencies aside. -/
lemma conclude_eq :
    let concluded₁ :=
      conclude U serde o ctx (fanOutEnd U o ctx now recipe request) recipe request
        (proposerOutcomes U o ctx now recipe request) (answers U o ctx now recipe request)
    let concluded₂ :=
      conclude V serde o ctx (fanOutEnd V o ctx now recipe request) recipe request
        (proposerOutcomes V o ctx now recipe request) (answers V o ctx now recipe request)
    concluded₁.1.eraseLatency = concluded₂.1.eraseLatency ∧ concluded₁.2 = concluded₂.2 := by
  rw [conclude_fanOut, conclude_fanOut, h.succeeded_eq, h.aggregatorVerdict_eq,
    h.aggregatorCall_eq, h.rendered_eq]
  split
  · simp only [MoaRun.eraseLatency, h.proposerOutcomes_eq, and_self]
  · simp only [MoaRun.eraseLatency, h.proposerOutcomes_eq, h.aggregatorOutcome_eq, and_self]

end SameResults

/-- The order in which the arms finish does not show: when every call comes to the same result,
the calls made, their requests, and all that is returned but the latencies are the same. -/
theorem completion_order_irrelevant (h : SameResults U V o ctx now recipe request)
    {recipeName : String} (hrecipe : o.recipe recipeName = some recipe)
    (first second : CompletionOrder) :
    let run₁ := run U serde o ctx first now recipeName request
    let run₂ := run V serde o ctx second now recipeName request
    run₁.1.map MoaRun.eraseLatency = run₂.1.map MoaRun.eraseLatency ∧ run₁.2 = run₂.2 := by
  intro run₁ run₂
  obtain ⟨hmoa, hcalls⟩ := h.conclude_eq serde
  have hrun₁ : run₁ = _ := run_eq U serde o ctx now request first recipeName
  have hrun₂ : run₂ = _ := run_eq V serde o ctx now request second recipeName
  rw [hrecipe] at hrun₁ hrun₂
  rw [hrun₁, hrun₂]
  constructor
  · exact congrArg Except.ok hmoa
  · show fanOutCalls o ctx recipe request ++ _ = fanOutCalls o ctx recipe request ++ _
    rw [hcalls]

end Order

/-! ## A recipe that asks one model twice -/

/-- Only string contents are printed below, and those are taken as they are. -/
def textSerde : SerdeJson where
  parse _ := .error "EOF while parsing a value at line 1 column 0"
  print _ := "null"

/-- A completion with one choice, whose message is a text. -/
def completionOf (text : String) : ChatResponse where
  id := none
  object := none
  model := none
  choices := [.object [("message", .object [("content", .string text)])]]
  usage := some (.object [("total_tokens", .ofI64 10)])
  extra := []

def helloRequest : ChatRequest where
  model := "moa/twice"
  messages := [{ role := "user", content := some (.string "hello"), extra := [] }]
  stream := none
  maxTokens := none
  temperature := none
  topP := none
  extra := []

/-- The context of that request, under a deadline. -/
def helloCtx (deadline : Instant) : ReqCtx where
  requestId := "req-1"
  deadline := deadline
  callerKeyId := "key-1"
  model := "moa/twice"

def twice : Recipe where
  name := "twice"
  proposers := ["opus", "opus"]
  aggregator := "opus"
  strategy := .quorumJudge
  armTimeoutMs := 100
  quorum := 2

def twiceOrchestrator : Orchestrator Unit where
  resolver := (∅ : Table String Unit).insert "opus" ()
  recipes := (∅ : Table String Recipe).insert "twice" twice

/-- The model answers either arm after its own delay. -/
def twiceUpstreams (delay : ℕ → ℕ) : Upstreams Unit where
  upstreamId _ := "opus"
  chat call :=
    match call.site with
    | .proposer 0 => { delay := some (delay 0), result := .ok (completionOf "yes") }
    | .proposer idx => { delay := some (delay idx), result := .ok (completionOf "no") }
    | .aggregator => { delay := some 1, result := .ok (completionOf "maybe") }

/-- The arms as they were started. -/
def CompletionOrder.inOrder : CompletionOrder where
  order arms := arms
  perm := List.Perm.refl

/-- The last arm first. -/
def CompletionOrder.reversed : CompletionOrder where
  order arms := arms.reverse
  perm := List.reverse_perm

lemma sameResults_twice :
    SameResults (twiceUpstreams fun idx => idx + 1) (twiceUpstreams fun idx => 2 - idx)
      twiceOrchestrator (helloCtx 1000000000) 0 twice helloRequest := by
  constructor
  · rfl
  · intro row hrow
    have hrows : row = ("opus", 0) ∨ row = ("opus", 1) := by simpa [twice] using hrow
    rcases hrows with rfl | rfl
    · rfl
    · rfl
  · intro call hsite
    have hbudget :
        aggregatorBudget (twiceUpstreams fun idx => idx + 1) twiceOrchestrator
            (helloCtx 1000000000) 0 twice helloRequest =
          aggregatorBudget (twiceUpstreams fun idx => 2 - idx) twiceOrchestrator
            (helloCtx 1000000000) 0 twice helloRequest := by decide +kernel
    rw [hbudget]
    simp only [verdict, twiceUpstreams, hsite]

/-- The first arm finishes first in one run and last in the other. -/
theorem completion_order_irrelevant_twice :
    let run₁ := run (twiceUpstreams fun idx => idx + 1) textSerde twiceOrchestrator
      (helloCtx 1000000000) .inOrder 0 "twice" helloRequest
    let run₂ := run (twiceUpstreams fun idx => 2 - idx) textSerde twiceOrchestrator
      (helloCtx 1000000000) .reversed 0 "twice" helloRequest
    run₁.1.map MoaRun.eraseLatency = run₂.1.map MoaRun.eraseLatency ∧ run₁.2 = run₂.2 :=
  completion_order_irrelevant sameResults_twice rfl .inOrder .reversed

end Moa

end Moaray
