import Moaray.Moa.Orchestrator

/-!
# What a run promises

A run is determined by the verdicts on its calls: those on the proposers decide the quorum and what
the aggregator is asked, and the one on the aggregator decides the outcome.

* `conclude_fanOut`, `run_eq` — a run read off its verdicts.
* `RunSpec` — the promises of a run: outcomes, calls, quorum, answer and usage.
* `run_meets_spec` — every run of a known recipe keeps them, and an unknown one calls nobody.

A recipe is answered when its aggregator answers, and the aggregator is asked when a quorum of
proposers did.  The promises spell this out for what a caller and an operator can see: one outcome
for each proposer in the recipe's order, one call for each proposer that resolves, the aggregator
called once or not at all, the error of a run that misses its quorum, and the usage as the sum over
all calls that answered.

**Design.**  The module comes in two halves.  The first computes: the collecting of arms, their
order and the early exits of the source are gone from `run_eq`, which is an equation between the
run and its verdicts.  The second states the promises about an arbitrary result and list of calls,
without `run` in them, and shows that the right side of that equation keeps each of them.
-/

namespace Moaray

open Framework Json

namespace Moa

section RunSpec

variable {π : Type} (U : Upstreams π) (serde : SerdeJson) (o : Orchestrator π) (ctx : ReqCtx)
  (now : Instant) (recipe : Recipe) (request : ChatRequest)

/-! ## The verdicts of a run -/

/-- The number of proposers that answered. -/
def succeeded : ℕ :=
  recipe.proposers.zipIdx.countP fun row =>
    (armVerdict U o ctx now recipe request row).status = .ok

/-- The usage objects of the proposers that answered. -/
def proposerUsages : List Value :=
  recipe.proposers.zipIdx.filterMap fun row =>
    (armVerdict U o ctx now recipe request row).usage

/-- The end of the fan-out, when the aggregator is called. -/
def fanOutEnd : Instant := now + fanOutTime U o ctx now recipe request

/-- What is left for the aggregator by then. -/
def aggregatorBudget : ℕ :=
  effectiveTimeout ctx.deadline (fanOutEnd U o ctx now recipe request) recipe.armTimeoutMs

/-- The call the aggregator gets, if its provider resolves. -/
def aggregatorCall : Option (ChatCall π) :=
  (o.resolve recipe.aggregator).map fun p =>
    { site := .aggregator
      provider := p
      ctx
      request :=
        buildAggregatorRequest serde recipe request
          ((answers U o ctx now recipe request).map (extractText serde)) }

/-- The verdict on the aggregator's call, under the budget the fan-out left. -/
def aggregatorVerdict : Verdict :=
  verdict U (aggregatorBudget U o ctx now recipe request)
    (aggregatorCall U serde o ctx now recipe request)

/-- The outcome recorded for the aggregator, if it is called. -/
def aggregatorOutcome : Option ArmOutcome :=
  (aggregatorCall U serde o ctx now recipe request).map fun c =>
    outcomeOf recipe.aggregator (U.upstreamId c.provider)
      (asMillis (elapsed U (aggregatorBudget U o ctx now recipe request) (some c)))
      (aggregatorVerdict U serde o ctx now recipe request)

/-- The completion that is rendered from the aggregator's answer. -/
def rendered (answer : ChatResponse) : ChatResponse :=
  { answer with
    model := some ctx.model
    usage :=
      some (sumUsage (proposerUsages U o ctx now recipe request ++ answer.usage.toList)) }

/-! ## A run read off its verdicts -/

lemma Verdict.isSome_response (v : Verdict) : v.response.isSome = decide (v.status = .ok) := by
  cases v <;> rfl

lemma length_answers :
    (answers U o ctx now recipe request).length = succeeded U o ctx now recipe request := by
  unfold answers succeeded
  rw [List.length_filterMap_eq_countP]
  apply List.countP_congr
  intro row _
  rw [Verdict.isSome_response]

lemma usages_answers :
    (answers U o ctx now recipe request).filterMap ChatResponse.usage =
      proposerUsages U o ctx now recipe request := by
  unfold answers proposerUsages
  rw [List.filterMap_filterMap]
  rfl

/-- What follows the fan-out is decided by the quorum and the aggregator's verdict.  The proposers'
outcomes are passed on as they are. -/
theorem conclude_fanOut (proposers : List ArmOutcome) :
    conclude U serde o ctx (fanOutEnd U o ctx now recipe request) recipe request proposers
        (answers U o ctx now recipe request) =
      if succeeded U o ctx now recipe request < recipe.quorum then
        ({ proposers
           aggregator := none
           outcome :=
             .error (.moaQuorumFailed (succeeded U o ctx now recipe request) recipe.quorum) }, [])
      else
        ({ proposers
           aggregator := aggregatorOutcome U serde o ctx now recipe request
           outcome :=
             (aggregatorVerdict U serde o ctx now recipe request).outcome.map
               (rendered U o ctx now recipe request) },
          (aggregatorCall U serde o ctx now recipe request).toList) := by
  unfold conclude
  rw [length_answers, usages_answers]
  by_cases hquorum : succeeded U o ctx now recipe request < recipe.quorum
  · simp only [if_pos hquorum]
  · simp only [if_neg hquorum]
    unfold aggregatorOutcome aggregatorVerdict aggregatorCall
    cases o.resolve recipe.aggregator with
    | none => rfl
    | some p =>
        simp only [Option.map_some, verdict, elapsed, aggregatorBudget]
        rcases timeout _ _ with ⟨_ | _ | _, _⟩ <;> rfl

/-- A run read off its verdicts, whatever order its arms finish in.  The completion order is on the
left side of this equation only. -/
theorem run_eq (completion : CompletionOrder) (recipeName : String) :
    run U serde o ctx completion now recipeName request =
      match o.recipe recipeName with
      | none => (.error (.modelNotFound ("moa/" ++ recipeName)), [])
      | some recipe =>
          let concluded :=
            conclude U serde o ctx (fanOutEnd U o ctx now recipe request) recipe request
              (proposerOutcomes U o ctx now recipe request) (answers U o ctx now recipe request)
          (.ok concluded.1, fanOutCalls o ctx recipe request ++ concluded.2) := by
  unfold run
  cases o.recipe recipeName with
  | none => rfl
  | some recipe =>
      simp only [collectArms_fanOut]
      rfl

/-! ## The specification -/

/-- `a` records the verdict on a call of `model`; its latency is left open. -/
def Records (a : ArmOutcome) (model upstreamId : String) (v : Verdict) : Prop :=
  ∃ latencyMs, a = outcomeOf model upstreamId latencyMs v

/-- What a run of a recipe promises, whatever its providers do: about its outcomes, its calls, its
answer and its usage. -/
structure RunSpec (moa : MoaRun) (calls : List (ChatCall π)) : Prop where
  /-- One outcome per proposer, in recipe order. -/
  proposers :
    List.Forall₂
      (fun row a =>
        Records a row.1 (upstreamIdOf U o row.1) (armVerdict U o ctx now recipe request row))
      recipe.proposers.zipIdx moa.proposers
  /-- The aggregator is called once, when the quorum answered and its provider resolves. -/
  called :
    calls.countP (fun c => c.site = .aggregator) =
      if recipe.quorum ≤ succeeded U o ctx now recipe request ∧
          (o.resolve recipe.aggregator).isSome then 1
      else 0
  /-- Its outcome is there exactly when it was called. -/
  aggregator_isSome : moa.aggregator.isSome ↔ ∃ c ∈ calls, c.site = .aggregator
  aggregator :
    ∀ a, moa.aggregator = some a →
      Records a recipe.aggregator (upstreamIdOf U o recipe.aggregator)
        (aggregatorVerdict U serde o ctx now recipe request)
  quorum_failed :
    succeeded U o ctx now recipe request < recipe.quorum →
      moa.outcome =
        .error (.moaQuorumFailed (succeeded U o ctx now recipe request) recipe.quorum)
  /-- With a quorum the outcome fails just when the aggregator does. -/
  failed :
    recipe.quorum ≤ succeeded U o ctx now recipe request →
      ∀ e, (aggregatorVerdict U serde o ctx now recipe request).outcome = .error e →
        moa.outcome = .error e
  /-- Its answer is rendered as the requested model, with the usage of the whole run. -/
  answered :
    recipe.quorum ≤ succeeded U o ctx now recipe request →
      ∀ answer, aggregatorVerdict U serde o ctx now recipe request = .answered answer →
        ∃ summed,
          moa.outcome = .ok { answer with model := some ctx.model, usage := some summed } ∧
          Sums summed (proposerUsages U o ctx now recipe request ++ answer.usage.toList)

lemma forall₂_proposerOutcomes :
    List.Forall₂
      (fun row a =>
        Records a row.1 (upstreamIdOf U o row.1) (armVerdict U o ctx now recipe request row))
      recipe.proposers.zipIdx (proposerOutcomes U o ctx now recipe request) := by
  unfold proposerOutcomes
  rw [List.forall₂_map_right_iff, List.forall₂_same]
  intro row _
  exact ⟨_, rfl⟩

/-- No arm is a call of the aggregator. -/
lemma site_of_mem_fanOutCalls {c : ChatCall π} (hc : c ∈ fanOutCalls o ctx recipe request) :
    c.site ≠ .aggregator := by
  obtain ⟨row, -, hrow⟩ := List.mem_filterMap.1 hc
  obtain ⟨p, -, rfl⟩ := Option.map_eq_some_iff.1 hrow
  exact Site.noConfusion

lemma countP_fanOutCalls :
    (fanOutCalls o ctx recipe request).countP (fun c => c.site = .aggregator) = 0 := by
  rw [List.countP_eq_zero]
  intro c hc
  simpa using site_of_mem_fanOutCalls o ctx recipe request hc

lemma site_aggregatorCall {c : ChatCall π}
    (hc : aggregatorCall U serde o ctx now recipe request = some c) : c.site = .aggregator := by
  obtain ⟨p, -, rfl⟩ := Option.map_eq_some_iff.1 hc
  rfl

lemma countP_aggregatorCall :
    (aggregatorCall U serde o ctx now recipe request).toList.countP
        (fun c => c.site = .aggregator) =
      if (o.resolve recipe.aggregator).isSome then 1 else 0 := by
  unfold aggregatorCall
  cases o.resolve recipe.aggregator <;> simp

lemma records_aggregatorOutcome {a : ArmOutcome}
    (ha : aggregatorOutcome U serde o ctx now recipe request = some a) :
    Records a recipe.aggregator (upstreamIdOf U o recipe.aggregator)
      (aggregatorVerdict U serde o ctx now recipe request) := by
  obtain ⟨c, hc, rfl⟩ := Option.map_eq_some_iff.1 ha
  obtain ⟨p, hp, rfl⟩ := Option.map_eq_some_iff.1 hc
  have hid : upstreamIdOf U o recipe.aggregator = U.upstreamId p := by simp [upstreamIdOf, hp]
  rw [hid]
  exact ⟨_, rfl⟩

/-- The calls of a run that are the aggregator's are those made after the fan-out. -/
lemma exists_aggregator_call (calls : Option (ChatCall π))
    (hcalls : ∀ c, calls = some c → c.site = .aggregator) :
    (∃ c ∈ fanOutCalls o ctx recipe request ++ calls.toList, c.site = .aggregator) ↔
      calls.isSome := by
  constructor
  · rintro ⟨c, hc, hsite⟩
    rcases List.mem_append.1 hc with hin | hin
    · exact absurd hsite (site_of_mem_fanOutCalls o ctx recipe request hin)
    · cases calls with
      | none => cases hin
      | some c => rfl
  · intro hsome
    obtain ⟨c, rfl⟩ := Option.isSome_iff_exists.1 hsome
    exact ⟨c, by simp, hcalls c rfl⟩

/-- What a run returns once its fan-out is over keeps every promise. -/
lemma conclude_meets_spec :
    let concluded :=
      conclude U serde o ctx (fanOutEnd U o ctx now recipe request) recipe request
        (proposerOutcomes U o ctx now recipe request) (answers U o ctx now recipe request)
    RunSpec U serde o ctx now recipe request concluded.1
      (fanOutCalls o ctx recipe request ++ concluded.2) := by
  rw [conclude_fanOut]
  have hproposers := forall₂_proposerOutcomes U o ctx now recipe request
  have harms := countP_fanOutCalls o ctx recipe request
  have hnone := exists_aggregator_call o ctx recipe request none nofun
  by_cases hquorum : succeeded U o ctx now recipe request < recipe.quorum
  · rw [if_pos hquorum]
    have hnot : ¬ recipe.quorum ≤ succeeded U o ctx now recipe request := by omega
    constructor
    · exact hproposers
    · simp [harms, hnot]
    · exact hnone.symm
    · nofun
    · exact fun _ => rfl
    · exact fun h => absurd h hnot
    · exact fun h => absurd h hnot
  · rw [if_neg hquorum]
    have hle : recipe.quorum ≤ succeeded U o ctx now recipe request := by omega
    constructor
    · exact hproposers
    · rw [List.countP_append, harms, countP_aggregatorCall]
      simp [hle]
    · rw [exists_aggregator_call o ctx recipe request _ fun c hc =>
        site_aggregatorCall U serde o ctx now recipe request hc]
      simp [aggregatorOutcome]
    · exact fun a => records_aggregatorOutcome U serde o ctx now recipe request
    · exact fun h => absurd h hquorum
    · intro _ e he
      simp [he, Except.map]
    · intro _ answer hanswer
      refine ⟨_, ?_, sums_sumUsage _⟩
      simp [hanswer, Verdict.outcome, Except.map, rendered]

/-- A run of a known recipe keeps every promise, whatever its providers do and whatever order
its arms finish in; a run of an unknown one fails at once and calls nobody. -/
theorem run_meets_spec (completion : CompletionOrder) (recipeName : String) :
    match o.recipe recipeName with
    | some recipe =>
        ∃ moa calls,
          run U serde o ctx completion now recipeName request = (.ok moa, calls) ∧
          RunSpec U serde o ctx now recipe request moa calls
    | none =>
        run U serde o ctx completion now recipeName request =
          (.error (.modelNotFound ("moa/" ++ recipeName)), []) := by
  rw [run_eq]
  cases o.recipe recipeName with
  | none => rfl
  | some recipe => exact ⟨_, _, rfl, conclude_meets_spec U serde o ctx now recipe request⟩

end RunSpec

end Moa

end Moaray
