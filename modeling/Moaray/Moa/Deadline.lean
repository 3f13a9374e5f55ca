import Moaray.Config.Validate
import Moaray.Moa.Order

/-!
# The deadline of a run

The fan-out waits for every arm, up to the smaller of the recipe's budget and the time left, and
the aggregator gets what is left after that.  A hanging arm can therefore use up the time of an
aggregator that would have answered: nothing relates the recipe's budget to the request's.

* `fanOutTime_add_le` — when the fan-out leaves a given time before the deadline.
* `succeeds_iff_budget` — with a quorum, a run succeeds when the aggregator gets its time.
* `succeeds_iff` — that is, when no arm can take too long, or none does.
* `straggler_fails_run` — a validated configuration under which a hanging arm fails the run.

The time of the fan-out is the greatest of the times its arms take, and an arm takes its call's
time or its timeout, whichever is less.  So the fan-out leaves `d` before the deadline in two
cases: the recipe's budget does, for every arm, or each arm that does not end within the budget
ends `d` before the deadline all the same.  The second case is about the proposers; only the first
can be arranged by configuration.

**Design.**  `InTime` is what the recipe can promise when its stragglers are left aside: a quorum
by some time `t`, an aggregator that takes `d`, and both together before the deadline.  The theorem
says what is still missing then, and it is an equivalence.
-/

namespace Moaray

open Framework Json

namespace Moa

/-- The run returned a completion. -/
def Succeeds (result : Except Error MoaRun) : Prop :=
  ∃ moa resp, result = .ok moa ∧ moa.outcome = .ok resp

/-! ## The time of a call -/

lemma snd_timeout (budget : ℕ) (reply : Reply) :
    (timeout budget reply).2 =
      match reply.delay with
      | some δ => min δ budget
      | none => budget := by
  unfold timeout
  cases reply.delay with
  | none => rfl
  | some δ =>
      by_cases hδ : δ ≤ budget
      · simp [hδ]
      · simp [hδ, min_eq_right (Nat.le_of_not_le hδ)]

lemma verdict_of_ok {π : Type} {U : Upstreams π} {call : ChatCall π} {d : ℕ}
    {resp : ChatResponse} (hchat : U.chat call = { delay := some d, result := .ok resp })
    (budget : ℕ) :
    verdict U budget (some call) = if d ≤ budget then .answered resp else .timedOut := by
  unfold verdict timeout
  by_cases hd : d ≤ budget
  · simp [hchat, hd]
  · simp [hchat, hd]

lemma foldr_max_add_le {d T : ℕ} (hd : d ≤ T) (l : List ℕ) :
    l.foldr max 0 + d ≤ T ↔ ∀ x ∈ l, x + d ≤ T := by
  induction l with
  | nil => simpa using hd
  | cons x l ih =>
      rw [List.foldr_cons, List.forall_mem_cons, ← ih]
      omega

section Deadline

variable {π : Type} (U : Upstreams π) (serde : SerdeJson) (o : Orchestrator π) (ctx : ReqCtx)
  (now : Instant) (recipe : Recipe) (request : ChatRequest)

lemma fanOutTime_eq :
    fanOutTime U o ctx now recipe request =
      (recipe.proposers.zipIdx.map (armElapsed U o ctx now recipe request)).foldr max 0 := by
  unfold fanOutTime fanOut
  rw [List.map_map]
  congr 1
  apply List.map_congr_left
  intro row _
  simp [arm_eq]

/-- Every proposer that resolves ends, with `d` to spare before the deadline, whether it answers or
fails. -/
def NoStraggler (d : ℕ) : Prop :=
  ∀ row ∈ recipe.proposers.zipIdx, ∀ call, armCall o ctx request row = some call →
    ∃ δ, (U.chat call).delay = some δ ∧ δ + d ≤ ctx.deadline.durationSince now

variable {U serde o ctx now recipe request}

/-- An arm leaves `d` before the deadline when its budget does, or it ends that early. -/
lemma armElapsed_add_le {d : ℕ} (hpos : 0 < d) (hd : d ≤ ctx.deadline.durationSince now)
    (row : String × ℕ) :
    armElapsed U o ctx now recipe request row + d ≤ ctx.deadline.durationSince now ↔
      durationFromMillis recipe.armTimeoutMs + d ≤ ctx.deadline.durationSince now ∨
        ∀ call, armCall o ctx request row = some call →
          ∃ δ, (U.chat call).delay = some δ ∧ δ + d ≤ ctx.deadline.durationSince now := by
  unfold armElapsed
  cases hcall : armCall o ctx request row with
  | none => simpa [elapsed] using hd
  | some call =>
      simp only [elapsed, snd_timeout, effectiveTimeout, Option.some.injEq, forall_eq']
      cases hdelay : (U.chat call).delay with
      | none =>
          simp only [reduceCtorEq, false_and, exists_false, or_false]
          omega
      | some δ =>
          simp only [Option.some.injEq, exists_eq_left']
          omega

/-- The fan-out leaves `d` before the deadline when the recipe's budget does, or every arm ends
that early. -/
theorem fanOutTime_add_le {d : ℕ} (hpos : 0 < d) (hd : d ≤ ctx.deadline.durationSince now) :
    fanOutTime U o ctx now recipe request + d ≤ ctx.deadline.durationSince now ↔
      durationFromMillis recipe.armTimeoutMs + d ≤ ctx.deadline.durationSince now ∨
        NoStraggler U o ctx now recipe request d := by
  rw [fanOutTime_eq, foldr_max_add_le hd, List.forall_mem_map]
  simp only [armElapsed_add_le hpos hd]
  constructor
  · intro h
    by_cases hbudget :
        durationFromMillis recipe.armTimeoutMs + d ≤ ctx.deadline.durationSince now
    · exact .inl hbudget
    · exact .inr fun row hrow => (h row hrow).resolve_left hbudget
  · rintro (hbudget | hends) row hrow
    · exact .inl hbudget
    · exact .inr (hends row hrow)

/-- The aggregator gets the time it takes, if the recipe allows it, when the fan-out leaves it. -/
lemma le_aggregatorBudget_iff {d : ℕ} (hd : d ≤ durationFromMillis recipe.armTimeoutMs) :
    d ≤ aggregatorBudget U o ctx now recipe request ↔
      d = 0 ∨ fanOutTime U o ctx now recipe request + d ≤ ctx.deadline.durationSince now := by
  unfold aggregatorBudget effectiveTimeout fanOutEnd
  rw [le_min_iff]
  simp only [Instant.durationSince]
  omega

/-! ## A quorum in time -/

variable (U serde o ctx now recipe request)

/-- Whether a proposer's provider answers by time `t`. -/
def answersBy (t : ℕ) (row : String × ℕ) : Bool :=
  match (armCall o ctx request row).map U.chat with
  | some { delay := some δ, result := .ok _ } => δ ≤ t
  | _ => false

/-- A quorum answers by time `t`, the aggregator answers `d` after it is called, either is
within the recipe's budget, and both fit before the deadline. -/
structure InTime (t d : ℕ) : Prop where
  t_le : t ≤ durationFromMillis recipe.armTimeoutMs
  quorum : recipe.quorum ≤ recipe.proposers.zipIdx.countP (answersBy U o ctx request t)
  d_le : d ≤ durationFromMillis recipe.armTimeoutMs
  answer :
    ∃ call resp, aggregatorCall U serde o ctx now recipe request = some call ∧
      U.chat call = { delay := some d, result := .ok resp }
  in_time : t + d < ctx.deadline.durationSince now

variable {U serde o ctx now recipe request}

/-- A proposer is counted when it answers within its timeout. -/
lemma status_armVerdict_iff (row : String × ℕ) :
    (armVerdict U o ctx now recipe request row).status = .ok ↔
      answersBy U o ctx request (effectiveTimeout ctx.deadline now recipe.armTimeoutMs) row =
        true := by
  unfold armVerdict answersBy verdict timeout
  cases armCall o ctx request row with
  | none => simp [Verdict.status]
  | some call =>
      simp only [Option.map_some]
      generalize U.chat call = reply
      rcases reply with ⟨_ | δ, e | resp⟩
      · simp [Verdict.status]
      · simp [Verdict.status]
      · by_cases hδ : δ ≤ effectiveTimeout ctx.deadline now recipe.armTimeoutMs
        · simp [hδ, Verdict.status]
        · simp [hδ, Verdict.status]
      · by_cases hδ : δ ≤ effectiveTimeout ctx.deadline now recipe.armTimeoutMs
        · simp [hδ, Verdict.status]
        · simp [hδ, Verdict.status]

lemma succeeded_eq :
    succeeded U o ctx now recipe request =
      recipe.proposers.zipIdx.countP
        (answersBy U o ctx request (effectiveTimeout ctx.deadline now recipe.armTimeoutMs)) := by
  unfold succeeded
  refine List.countP_congr fun row _ => ?_
  rw [decide_eq_true_eq]
  exact status_armVerdict_iff row

lemma answersBy_mono {t t' : ℕ} (h : t ≤ t') {row : String × ℕ}
    (hrow : answersBy U o ctx request t row = true) :
    answersBy U o ctx request t' row = true := by
  unfold answersBy at hrow ⊢
  split at hrow
  · rename_i heq
    simp only [decide_eq_true_eq] at hrow
    simpa [heq] using hrow.trans h
  · cases hrow

namespace InTime

variable {t d : ℕ} (h : InTime U serde o ctx now recipe request t d)

include h

lemma quorum_met : recipe.quorum ≤ succeeded U o ctx now recipe request := by
  have htime := h.in_time
  have hbudget : t ≤ effectiveTimeout ctx.deadline now recipe.armTimeoutMs :=
    le_min h.t_le (by omega)
  rw [succeeded_eq]
  exact h.quorum.trans (List.countP_mono_left fun row _ hrow => answersBy_mono hbudget hrow)

/-- With a quorum, the run succeeds just when the aggregator gets the time it takes. -/
lemma succeeds_iff_budget {recipeName : String} (hrecipe : o.recipe recipeName = some recipe)
    (completion : CompletionOrder) :
    Succeeds (run U serde o ctx completion now recipeName request).1 ↔
      d ≤ aggregatorBudget U o ctx now recipe request := by
  obtain ⟨call, resp, hcall, hchat⟩ := h.answer
  have hquorum : ¬ succeeded U o ctx now recipe request < recipe.quorum :=
    not_lt.2 h.quorum_met
  have hverdict : aggregatorVerdict U serde o ctx now recipe request =
      if d ≤ aggregatorBudget U o ctx now recipe request then .answered resp else .timedOut := by
    unfold aggregatorVerdict
    rw [hcall, verdict_of_ok hchat]
  rw [run_eq, hrecipe]
  simp only [conclude_fanOut, if_neg hquorum, hverdict]
  constructor
  · rintro ⟨moa, answer, hmoa, houtcome⟩
    by_contra hlate
    cases hmoa
    simp [hlate, Verdict.outcome, Except.map] at houtcome
  · intro hd
    refine ⟨_, rendered U o ctx now recipe request resp, rfl, ?_⟩
    simp [hd, Verdict.outcome, Except.map]

end InTime

/-- A run whose quorum answers in time, and whose aggregator would too, succeeds just when the
aggregator takes no time, or the recipe's budget leaves it enough before the deadline, or no
proposer takes so long that it does not. -/
theorem succeeds_iff {recipeName : String} {t d : ℕ}
    (hrecipe : o.recipe recipeName = some recipe)
    (h : InTime U serde o ctx now recipe request t d) (completion : CompletionOrder) :
    Succeeds (run U serde o ctx completion now recipeName request).1 ↔
      d = 0 ∨
      durationFromMillis recipe.armTimeoutMs + d ≤ ctx.deadline.durationSince now ∨
      NoStraggler U o ctx now recipe request d := by
  rw [h.succeeds_iff_budget hrecipe completion, le_aggregatorBudget_iff h.d_le]
  rcases Nat.eq_zero_or_pos d with rfl | hpos
  · simp
  · have htime := h.in_time
    rw [fanOutTime_add_le hpos (by omega)]

end Deadline

/-! ## A proposer that hangs -/

def duelPlatform : Platform where
  env name := if name = "UPSTREAM_KEY" then some "sk-upstream" else none
  urlScheme _ := .ok "https"
  toLowercase s := String.ofList (s.toList.map Char.toLower)
  displayPrice _ := ""

def duelModel (name : String) : ModelDoc where
  name := name
  providerType := .openaiCompat
  baseUrl := "https://" ++ name
  apiKeyEnv := "UPSTREAM_KEY"
  upstreamId := none
  rateLimit := none
  maxConcurrency := none
  pricePromptPerMtokUsd := none
  priceCompletionPerMtokUsd := none

/-- Either model proposes and the second one aggregates; a request gets no longer than an arm. -/
def duelDoc : ConfigDoc where
  server := { requestTimeoutMs := 100 }
  keys := []
  models := [duelModel "slow", duelModel "fast"]
  recipes := (∅ : Table String RecipeDoc).insert "duel"
    { proposers := ["slow", "fast"], aggregator := "fast", strategy := .concatSynthesize,
      armTimeoutMs := 100, quorum := 1 }

def duel : RecipeConfig where
  name := "duel"
  proposers := ["slow", "fast"]
  aggregator := "fast"
  strategy := .concatSynthesize
  armTimeoutMs := 100
  quorum := 1

lemma validate_duel :
    ∃ config, validate duelPlatform duelDoc = .ok config ∧ config.recipes["duel"]? = some duel ∧
      config.server.requestTimeoutMs = 100 := by
  refine ⟨_, rfl, ?_, ?_⟩
  · rfl
  · rfl

def duelOrchestrator : Orchestrator String where
  resolver := ((∅ : Table String String).insert "slow" "slow").insert "fast" "fast"
  recipes := (∅ : Table String Recipe).insert "duel" (toMoaRecipe duel)

/-- The first model hangs; the second one answers in 10 ms. -/
def duelUpstreams : Upstreams String where
  upstreamId p := p
  chat call :=
    if call.provider = "fast" then
      { delay := some 10000000, result := .ok (completionOf "yes") }
    else
      { delay := none, result := .error .upstreamTimeout }

/-- The quorum and the aggregator take 20 ms together. -/
lemma inTime_duel {deadline : Instant} (h : 20000000 < deadline) :
    InTime duelUpstreams textSerde duelOrchestrator (helloCtx deadline) 0 (toMoaRecipe duel)
      helloRequest 10000000 10000000 where
  t_le := by decide
  quorum := Nat.le_refl 1
  d_le := by decide
  answer := ⟨_, _, rfl, rfl⟩
  in_time := h

/-- With a second to spare the run succeeds, although the first model never answers: its arm ends
with the recipe's budget. -/
theorem succeeds_duel :
    Succeeds (run duelUpstreams textSerde duelOrchestrator (helloCtx 1000000000) .inOrder 0 "duel"
      helloRequest).1 :=
  (succeeds_iff rfl (inTime_duel (by decide)) .inOrder).2 (.inr (.inl (by decide)))

/-- A validated configuration under which a quorum in time is not enough: the fan-out waits for
the model that hangs until the request is over. -/
theorem straggler_fails_run :
    ¬ ∀ (P : Platform) (config : RuntimeConfig) (recipeName : String) (r : RecipeConfig),
      Validated P config → config.recipes[recipeName]? = some r →
      ∀ (U : Upstreams String) (serde : SerdeJson) (o : Orchestrator String) (ctx : ReqCtx)
        (now : Instant) (request : ChatRequest) (completion : CompletionOrder) (t d : ℕ),
        o.recipe recipeName = some (toMoaRecipe r) →
        ctx.deadline = now + durationFromMillis config.server.requestTimeoutMs →
        InTime U serde o ctx now (toMoaRecipe r) request t d →
        Succeeds (run U serde o ctx completion now recipeName request).1 := by
  intro h
  obtain ⟨config, hvalid, hrecipe, htimeout⟩ := validate_duel
  have htime : InTime duelUpstreams textSerde duelOrchestrator (helloCtx 100000000) 0
      (toMoaRecipe duel) helloRequest 10000000 10000000 := inTime_duel (by decide)
  have hdeadline : (helloCtx 100000000).deadline =
      0 + durationFromMillis config.server.requestTimeoutMs := by
    rw [htimeout]
    decide
  have hsucceeds := h duelPlatform config "duel" duel ⟨_, hvalid⟩ hrecipe duelUpstreams textSerde
    duelOrchestrator (helloCtx 100000000) 0 helloRequest .inOrder _ _ rfl hdeadline htime
  rw [htime.succeeds_iff_budget rfl] at hsucceeds
  revert hsucceeds
  decide +kernel

end Moa

end Moaray
