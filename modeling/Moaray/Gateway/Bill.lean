import Moaray.Gateway.Forwarding

/-!
# The usage a client sees is the usage that is booked

The usage of a run's completion is summed from the usage objects of its calls; the rows are booked
arm by arm, from tokens that were taken out of the same objects.  The two never disagree.

* `tokensAt`, `total` — the tokens of usage objects, and their sum in an `i64`.
* `get_sumUsage_lawful` — the sum of usage objects, by their tokens.
* `OpenAiProvider.answerable`, `AnthropicProvider.answerable` — what the adapters answer with.
* `tokens_run` — the tokens of the arms of a run, by the usage objects it is billed for.
* `bill_is_booked` — the completion and the rows.

Both sides come from the answers of the proposers and of the aggregator.  An answer's usage object
is summed key by key into the completion; and the two counts under its keys are extracted for the
row of its arm.  A side without any count is left out of the completion, and then no row has a
count on it.

**Design.**  That a usage object has each key once, and that a completion has no second `usage`
among its unknown fields, is what it means to have been read by the library; `Answering` asks it of
the answers, and the adapters provide it, each for its own reason.  The sum wraps on both sides in
the same way, so nothing is assumed of the counts.
-/

namespace Moaray

open Framework Json

namespace Moa

/-! ## Sums -/

/-- The integer a usage object has under a key. -/
def tokenAt (key : String) (u : Value) : Option Int64 := (u.get key).bind Value.asI64

def tokensAt (key : String) (usages : List Value) : List Int64 := usages.filterMap (tokenAt key)

/-- What tokens are summed to: nothing without any, and otherwise an `i64`, which wraps. -/
def total (tokens : List Int64) : Option Value :=
  if tokens = [] then none else some (.ofI64 (Int64.ofInt (tokens.map Int64.toInt).sum))

/-- A key comes once in an object, so at most one integer stands under it. -/
lemma fieldInts_ordered {m : Map} (hm : m.Ordered) (key : String) :
    fieldInts key m = ((m.get key).bind Value.asI64).toList.map Int64.toInt := by
  induction m with
  | nil => rfl
  | cons f m ih =>
      obtain ⟨hlt, htail⟩ := List.pairwise_cons.1 hm
      rw [Map.get_cons, fieldInts, List.filterMap_cons, ← fieldInts, ih htail]
      by_cases hkey : key = f.1
      · have hnone : Map.get m key = none := Map.get_eq_none fun g hg => by
          rw [hkey]
          exact (hlt g hg).ne'
        rw [hnone, if_pos hkey, fieldInt, if_pos hkey.symm]
        cases hf : f.2.asI64 <;> simp [hf]
      · rw [if_neg hkey, fieldInt, if_neg (Ne.symm hkey)]

lemma fieldInts_usageFields {u : Value} (hu : Lawful u) (key : String) :
    fieldInts key (usageFields u) = (tokenAt key u).toList.map Int64.toInt := by
  cases hu with
  | object m hordered => exact fieldInts_ordered hordered key
  | _ => rfl

lemma intsAt_lawful {usages : List Value} (h : ∀ u ∈ usages, Lawful u) (key : String) :
    intsAt key usages = (tokensAt key usages).map Int64.toInt := by
  induction usages with
  | nil => rfl
  | cons u usages ih =>
      have hu := fieldInts_usageFields (h u (List.mem_cons_self ..)) key
      have hrest := ih fun v hv => h v (List.mem_cons_of_mem _ hv)
      rw [intsAt, List.flatMap_cons, fieldInts, List.filterMap_append, ← fieldInts, ← fieldInts,
        ← intsAt, hu, hrest, tokensAt, tokensAt, List.filterMap_cons]
      cases tokenAt key u <;> rfl

/-- The sum of usage objects has the total of their tokens under a key.  A lawful usage object
carries a key at most once, so each contributes one integer or none. -/
theorem get_sumUsage_lawful {usages : List Value} (h : ∀ u ∈ usages, Lawful u) (key : String) :
    (sumUsage usages).get key = total (tokensAt key usages) := by
  rw [get_sumUsage, intsAt_lawful h, total]
  simp only [List.map_eq_nil_iff]

/-! ## The arms -/

section Arms

variable {π : Type} {U : Upstreams π} {serde : SerdeJson} {o : Orchestrator π} {ctx : ReqCtx}
  {now : Instant} {recipe : Recipe} {request : ChatRequest}

lemma tokens_outcomeOf (model upstreamId : String) (latencyMs : UInt64) (v : Verdict) :
    (outcomeOf model upstreamId latencyMs v).promptTokens =
        v.usage.bind (tokenAt "prompt_tokens") ∧
      (outcomeOf model upstreamId latencyMs v).completionTokens =
        v.usage.bind (tokenAt "completion_tokens") := by
  unfold outcomeOf extractTokens
  cases v.usage <;> exact ⟨rfl, rfl⟩

variable (U o ctx now recipe request) in
/-- The tokens of the proposers are those of the usage objects they reported. -/
lemma proposers_tokens :
    (proposerOutcomes U o ctx now recipe request).filterMap ArmOutcome.promptTokens =
        tokensAt "prompt_tokens" (proposerUsages U o ctx now recipe request) ∧
      (proposerOutcomes U o ctx now recipe request).filterMap ArmOutcome.completionTokens =
        tokensAt "completion_tokens" (proposerUsages U o ctx now recipe request) := by
  unfold proposerOutcomes proposerUsages tokensAt
  rw [List.filterMap_map, List.filterMap_map, List.filterMap_filterMap, List.filterMap_filterMap]
  constructor
  · exact List.filterMap_congr fun row _ => (tokens_outcomeOf ..).1
  · exact List.filterMap_congr fun row _ => (tokens_outcomeOf ..).2

/-- The tokens of the aggregator are those of the usage object it reported. -/
lemma aggregator_tokens {answer : ChatResponse}
    (h : aggregatorVerdict U serde o ctx now recipe request = .answered answer) :
    (aggregatorOutcome U serde o ctx now recipe request).toList.filterMap
          ArmOutcome.promptTokens =
        tokensAt "prompt_tokens" answer.usage.toList ∧
      (aggregatorOutcome U serde o ctx now recipe request).toList.filterMap
          ArmOutcome.completionTokens =
        tokensAt "completion_tokens" answer.usage.toList := by
  obtain ⟨c, hc⟩ : ∃ c, aggregatorCall U serde o ctx now recipe request = some c := by
    refine Option.ne_none_iff_exists'.1 fun hnone => ?_
    rw [aggregatorVerdict, hnone] at h
    cases h
  have htokens := fun latencyMs =>
    tokens_outcomeOf recipe.aggregator (U.upstreamId c.provider) latencyMs (.answered answer)
  rw [aggregatorOutcome, hc, h]
  simp only [Option.map_some, Option.toList_some, List.filterMap_cons, List.filterMap_nil,
    (htokens _).1, (htokens _).2, tokensAt, Verdict.usage, Verdict.response, Option.bind_some]
  cases answer.usage with
  | none => exact ⟨rfl, rfl⟩
  | some u => exact ⟨rfl, rfl⟩

/-- An answer is what the upstream ended its call with. -/
lemma result_of_answered {budget : ℕ} {call : Option (ChatCall π)} {resp : ChatResponse}
    (h : verdict U budget call = .answered resp) : ∃ c, (U.chat c).result = .ok resp := by
  unfold verdict at h
  cases call with
  | none => cases h
  | some c =>
      refine ⟨c, ?_⟩
      dsimp only at h
      unfold timeout at h
      cases hd : (U.chat c).delay with
      | none =>
          rw [hd] at h
          cases h
      | some d =>
          rw [hd] at h
          by_cases hlate : d ≤ budget
          · cases hr : (U.chat c).result with
            | error e => simp [hlate, hr] at h
            | ok r => simpa [hlate, hr] using h
          · simp [hlate] at h

lemma Verdict.eq_answered {v : Verdict} {resp : ChatResponse} (h : v.response = some resp) :
    v = .answered resp := by
  cases v with
  | answered r => exact congrArg Verdict.answered (Option.some.inj h)
  | _ => cases h

lemma run_of_ok {completion : CompletionOrder} {name : String} {moa : MoaRun}
    {response : ChatResponse} (hrun : (run U serde o ctx completion now name request).1 = .ok moa)
    (hok : moa.outcome = .ok response) :
    ∃ recipe answer, aggregatorVerdict U serde o ctx now recipe request = .answered answer ∧
      response = rendered U o ctx now recipe request answer ∧
      moa.proposers = proposerOutcomes U o ctx now recipe request ∧
      moa.aggregator = aggregatorOutcome U serde o ctx now recipe request := by
  rw [run_eq] at hrun
  cases hrecipe : o.recipe name with
  | none =>
      rw [hrecipe] at hrun
      cases hrun
  | some recipe =>
      simp only [hrecipe, conclude_fanOut, Except.ok.injEq] at hrun
      by_cases hquorum : succeeded U o ctx now recipe request < recipe.quorum
      · rw [if_pos hquorum] at hrun
        rw [← hrun] at hok
        cases hok
      · rw [if_neg hquorum] at hrun
        subst hrun
        refine ⟨recipe, ?_⟩
        cases hv : aggregatorVerdict U serde o ctx now recipe request with
        | answered answer =>
            simp only [hv, Verdict.outcome, Except.map, Except.ok.injEq] at hok
            exact ⟨answer, rfl, hok.symm, rfl, rfl⟩
        | unresolved | timedOut | failed => simp [hv, Verdict.outcome, Except.map] at hok

end Arms

end Moa

/-! ## The adapters -/

section Adapters

variable {serde : SerdeJson}

/-- What an adapter may answer with: a usage object of the library, and no field of its own among
the others. -/
def Answerable (r : ChatResponse) : Prop := r.WellFormed ∧ ∀ u, r.usage = some u → Lawful u

lemma answerable_of_fromValue {v : Value} {r : ChatResponse} (hv : Lawful v)
    (h : ChatResponse.fromValue v = some r) : Answerable r := by
  obtain ⟨m, rfl⟩ := exists_object h
  refine ⟨ChatResponse.wellFormed_of_fromValue hv.ordered h, fun u hu => ?_⟩
  obtain ⟨-, -, -, -, husage, -⟩ := ChatResponse.fromValue_eq_some h
  rw [husage, optValue_eq] at hu
  exact hv.get (Option.eq_some_of_filter_eq_some hu)

/-- An OpenAI-compatible upstream answers with what the library read, and values that were read are
lawful. -/
theorem OpenAiProvider.answerable {p : OpenAiProvider} {repeats : Bytes → Bool} {ctx : ReqCtx}
    {req : ChatRequest} {reply : UpstreamReply} {r : ChatResponse}
    (hserde : ∀ bytes v, serde.parse bytes = .ok v → Lawful v)
    (h : (p.chat serde repeats ctx req reply).2 = .ok r) : Answerable r := by
  cases reply with
  | error e => cases h
  | ok resp =>
      obtain ⟨bytes, -, hslice⟩ := OpenAiProvider.chat_ok h
      simp only [ChatResponse.fromSlice, Option.bind_eq_bind, Option.bind_eq_some_iff] at hslice
      obtain ⟨-, -, v, hv, hvalue⟩ := hslice
      refine answerable_of_fromValue (hserde bytes v ?_) hvalue
      cases hparse : serde.parse bytes with
      | error e =>
          rw [hparse] at hv
          cases hv
      | ok w =>
          rw [hparse] at hv
          exact congrArg Except.ok (Option.some.inj hv)

lemma lawful_anthropicToOpenai {resp openai : Value} {model : String}
    (h : AnthropicMap.anthropicToOpenai resp model = .ok openai) : Lawful openai := by
  obtain ⟨text, -, h⟩ := bind_eq_ok.1 h
  obtain rfl := Except.ok.inj h
  have hcount : ∀ n : UInt64, Lawful (.ofU64 n) := fun n => .number _ (by simp)
  refine Lawful.ofFields ?_
  simp only [List.forall_mem_cons, List.not_mem_nil, false_imp_iff, implies_true, and_true]
  refine ⟨.string _, .string _, .string _, .array _ ?_, Lawful.ofFields ?_⟩
  · simp only [List.forall_mem_cons, List.not_mem_nil, false_imp_iff, implies_true, and_true]
    refine Lawful.ofFields ?_
    simp only [List.forall_mem_cons, List.not_mem_nil, false_imp_iff, implies_true, and_true]
    refine ⟨hcount 0, Lawful.ofFields ?_, .string _⟩
    simp only [List.forall_mem_cons, List.not_mem_nil, false_imp_iff, implies_true, and_true]
    exact ⟨.string _, .string _⟩
  · simp only [List.forall_mem_cons, List.not_mem_nil, false_imp_iff, implies_true, and_true]
    exact ⟨hcount _, hcount _, hcount _⟩

/-- The Anthropic adapter answers with an object it put together itself, which is lawful whatever
the upstream sent. -/
theorem AnthropicProvider.answerable {p : AnthropicProvider} {ctx : ReqCtx} {req : ChatRequest}
    {reply : UpstreamReply} {r : ChatResponse}
    (h : (p.chat serde ctx req reply).result = .ok r) : Answerable r := by
  cases reply with
  | error e =>
      unfold AnthropicProvider.chat at h
      split at h <;> cases h
  | ok resp =>
      obtain ⟨-, anthropic, openai, chat, -, -, hopenai, hchat, rfl⟩ := AnthropicProvider.chat_ok h
      obtain ⟨hwell, husage⟩ := answerable_of_fromValue (lawful_anthropicToOpenai hopenai) hchat
      split
      · exact ⟨⟨hwell.ordered, hwell.unknown, by simp⟩, by simp⟩
      · exact ⟨hwell, husage⟩

end Adapters

/-! ## The two sides -/

/-- The calls of a run are answered by the adapters. -/
def Answering {ρ : Type} (w : Surroundings ρ) : Prop :=
  ∀ call resp, (w.chat call).result = .ok resp → Answerable resp

/-- Replies that the adapters read are answers: it takes nothing of the upstreams, and of the
library only that it builds lawful values. -/
lemma answering_of_replies {ρ : Type} {w : Surroundings ρ} {repeats : Bytes → Bool}
    {replies : Moa.ChatCall ProviderRef → RawReply}
    (hserde : ∀ bytes v, w.serde.parse bytes = .ok v → Lawful v)
    (hchat : ∀ c, w.chat c = chatReply w.serde repeats c (replies c)) : Answering w := by
  intro call resp h
  rw [hchat] at h
  simp only [chatReply] at h
  cases hdecision : (replies call).decision with
  | refused e =>
      rw [hdecision] at h
      cases h
  | attempted reply =>
      rw [hdecision] at h
      simp only [ProviderRef.chat, InnerProvider.chat] at h
      split at h
      · exact OpenAiProvider.answerable hserde h
      · exact AnthropicProvider.answerable h

/-- The usage object of a printed response is its usage. -/
lemma get_usage_toValue {r : ChatResponse} (hordered : r.extra.Ordered)
    (hunknown : r.extra.get "usage" = none) : r.toValue.get "usage" = r.usage := by
  have hget : Map.get (r.extra.foldl (fun m f => Map.insert m f.1 f.2) r.known) "usage" =
      (r.extra.get "usage").or (r.known.get "usage") := Map.get_flattened hordered "usage"
  rw [hunknown, Option.none_or, ChatResponse.get_known, if_pos rfl] at hget
  exact hget

/-- What a body bills, by its usage object. -/
def Bills (body : Value) (prompt completion : Option Value) : Prop :=
  ∃ usage, body.get "usage" = some usage ∧ usage.get "prompt_tokens" = prompt ∧
    usage.get "completion_tokens" = completion

namespace App

variable {ρ : Type} {w : Surroundings ρ} {req : Request}

/-- The tokens of the rows of a run are those of its arms. -/
lemma rows_tokens (b : Booking) (moa : Moa.MoaRun) :
    ((bookedArms moa).map fun arm => bookMoaArm b arm.1 arm.2).filterMap
          UsageRecord.promptTokens =
        moa.proposers.filterMap Moa.ArmOutcome.promptTokens ++
          moa.aggregator.toList.filterMap Moa.ArmOutcome.promptTokens ∧
      ((bookedArms moa).map fun arm => bookMoaArm b arm.1 arm.2).filterMap
          UsageRecord.completionTokens =
        moa.proposers.filterMap Moa.ArmOutcome.completionTokens ++
          moa.aggregator.toList.filterMap Moa.ArmOutcome.completionTokens := by
  unfold bookedArms
  simp only [List.map_append, List.map_map, List.filterMap_append, List.filterMap_map]
  exact ⟨rfl, rfl⟩

/-- A completion is rendered with the usage of its response. -/
lemma bills_renderMoa {moa : Moa.MoaRun} {r : ChatResponse} {usage : Value}
    (hordered : r.extra.Ordered) (hunknown : r.extra.get "usage" = none)
    (husage : r.usage = some usage) :
    ∃ body, (renderMoa w moa r).body = .json body ∧
      Bills body (usage.get "prompt_tokens") (usage.get "completion_tokens") := by
  have hget : r.toValue.get "usage" = some usage := by
    rw [get_usage_toValue hordered hunknown, husage]
  refine ⟨_, rfl, usage, ?_, rfl, rfl⟩
  split
  · exact (Map.get_insert_ne _ _ (by decide)).trans hget
  · exact hget

/-- The usage objects a completion is billed for are all of the library. -/
lemma lawful_usages {U : Moa.Upstreams ProviderRef} {o : Orchestrator ProviderRef}
    {ctx : ReqCtx} {now : Instant} {recipe : Recipe} {request : ChatRequest}
    {answer : ChatResponse}
    (hU : ∀ call resp, (U.chat call).result = .ok resp → Answerable resp)
    (hanswer : Answerable answer) :
    ∀ u ∈ Moa.proposerUsages U o ctx now recipe request ++ answer.usage.toList, Lawful u := by
  intro u hu
  rcases List.mem_append.1 hu with hu | hu
  · obtain ⟨row, -, hrow⟩ := List.mem_filterMap.1 hu
    obtain ⟨resp, hresp, husage⟩ := Option.bind_eq_some_iff.1 hrow
    obtain ⟨c, hc⟩ := Moa.result_of_answered (Moa.Verdict.eq_answered hresp)
    exact (hU c resp hc).2 u husage
  · exact hanswer.2 u (Option.mem_toList.1 hu)

/-- The tokens of the arms of a run with a completion are those of the usage objects it is billed
for. -/
lemma tokens_run {U : Moa.Upstreams ProviderRef} {o : Orchestrator ProviderRef} {ctx : ReqCtx}
    {completion : Moa.CompletionOrder} {now : Instant} {name : String} {request : ChatRequest}
    {moa : Moa.MoaRun} {response : ChatResponse}
    (hU : ∀ call resp, (U.chat call).result = .ok resp → Answerable resp)
    (hrun : (Moa.run U w.serde o ctx completion now name request).1 = .ok moa)
    (hok : moa.outcome = .ok response) :
    ∃ usages, (∀ u ∈ usages, Lawful u) ∧ response.usage = some (Moa.sumUsage usages) ∧
      response.extra.Ordered ∧ response.extra.get "usage" = none ∧
      moa.proposers.filterMap Moa.ArmOutcome.promptTokens ++
          moa.aggregator.toList.filterMap Moa.ArmOutcome.promptTokens =
        Moa.tokensAt "prompt_tokens" usages ∧
      moa.proposers.filterMap Moa.ArmOutcome.completionTokens ++
          moa.aggregator.toList.filterMap Moa.ArmOutcome.completionTokens =
        Moa.tokensAt "completion_tokens" usages := by
  obtain ⟨recipe, answer, hanswer, rfl, hproposers, haggregator⟩ := Moa.run_of_ok hrun hok
  obtain ⟨c, hc⟩ := Moa.result_of_answered hanswer
  have hanswerable := hU c answer hc
  have hsplit : ∀ key (usages more : List Value),
      Moa.tokensAt key (usages ++ more) = Moa.tokensAt key usages ++ Moa.tokensAt key more :=
    fun key usages more => List.filterMap_append
  obtain ⟨hprompt, hcompletion⟩ := Moa.proposers_tokens U o ctx now recipe request
  obtain ⟨haggPrompt, haggCompletion⟩ := Moa.aggregator_tokens hanswer
  refine ⟨_, lawful_usages hU hanswerable, rfl, hanswerable.1.ordered,
    hanswerable.1.unknown "usage" (by decide), ?_, ?_⟩
  · rw [hproposers, haggregator, hprompt, haggPrompt, hsplit]
  · rw [hproposers, haggregator, hcompletion, haggCompletion, hsplit]

/-- A MoA answer of success comes from a run with a completion. -/
lemma runMoa_of_ok {requestId callerKeyId recipe model : String} {raw : Bytes} {runtime : Runtime}
    (h : (respond (runMoa w requestId callerKeyId recipe raw model runtime).result).status = 200) :
    ∃ request moa response,
      (orchestrate w requestId callerKeyId recipe model request runtime).1 = .ok moa ∧
      moa.outcome = .ok response ∧
      (runMoa w requestId callerKeyId recipe raw model runtime).result =
        .ok (renderMoa w moa response) ∧
      (runMoa w requestId callerKeyId recipe raw model runtime).rows =
        (bookedArms moa).map fun arm =>
          bookMoaArm (booking w requestId callerKeyId runtime) arm.1 arm.2 := by
  have hfails : ∀ e : Error, (respond (.error e)).status ≠ 200 := by
    intro e hstatus
    rw [respond, status_errorResponse] at hstatus
    have hle := e.envelope_status.1
    rw [hstatus] at hle
    exact absurd hle (by decide)
  unfold runMoa at h ⊢
  cases hread : ChatRequest.fromSlice w.serde w.reader raw with
  | error e =>
      rw [hread] at h
      exact absurd h (hfails _)
  | ok request =>
      rw [hread] at h
      simp only at h ⊢
      cases hrun : (orchestrate w requestId callerKeyId recipe model request runtime).1 with
      | error e =>
          rw [hrun] at h
          exact absurd h (hfails _)
      | ok moa =>
          rw [hrun] at h
          simp only at h ⊢
          cases hok : moa.outcome with
          | error e =>
              rw [hok] at h
              exact absurd h (hfails _)
          | ok response =>
              refine ⟨request, moa, response, hrun, hok, rfl, ?_⟩
              simp only [List.map_map]
              rfl

/-- **The bill of a run.**  Whatever recipe ran, and whichever of its arms answered: the usage
object of the completion a client gets has for each kind of token the total of the rows that are
booked for the request. -/
theorem bill_is_booked (hanswers : Answering w) {callerKeyId recipe model : String} {raw : Bytes}
    {runtime : Runtime} (hroute : preRoute w req = .ok (.moa callerKeyId recipe raw model runtime))
    (hok : (chatCompletions w req).result.status = 200) :
    ∃ body, (chatCompletions w req).result.body = .json body ∧
      Bills body
        (Moa.total ((chatCompletions w req).rows.filterMap UsageRecord.promptTokens))
        (Moa.total ((chatCompletions w req).rows.filterMap UsageRecord.completionTokens)) := by
  unfold chatCompletions at hok ⊢
  rw [hroute] at hok ⊢
  simp only [execute] at hok ⊢
  obtain ⟨request, moa, response, hrun, houtcome, hresult, hrows⟩ := runMoa_of_ok hok
  obtain ⟨usages, hlawful, husage, hordered, hunknown, hprompt, hcompletion⟩ :=
    tokens_run (U := w.upstreams) hanswers hrun houtcome
  obtain ⟨hrowsPrompt, hrowsCompletion⟩ :=
    rows_tokens (booking w req.requestId callerKeyId runtime) moa
  rw [hresult, hrows, hrowsPrompt, hrowsCompletion, hprompt, hcompletion,
    ← Moa.get_sumUsage_lawful hlawful, ← Moa.get_sumUsage_lawful hlawful]
  exact bills_renderMoa hordered hunknown husage

/-! ### A billed request -/

/-- A request for the recipe, with what its user says. -/
def billedText (said : String) : String :=
  "\x7b\"model\":\"moa/r\",\"messages\":[\x7b\"role\":\"user\",\"content\":\"" ++ said ++ "\"\x7d]\x7d"

def billedFields (said : String) : Map :=
  [("messages", .array [.object [("content", .string said), ("role", .string "user")]]),
    ("model", .string "moa/r")]

/-- What a model answers, with three tokens read and four written. -/
def completionText (said : String) : String :=
  "\x7b\"id\":\"chatcmpl-1\",\"object\":\"chat.completion\",\"model\":\"gpt\",\"choices\":[" ++
    "\x7b\"index\":0,\"message\":\x7b\"role\":\"assistant\",\"content\":\"" ++ said ++ "\"\x7d," ++
    "\"finish_reason\":\"stop\"\x7d],\"usage\":\x7b\"prompt_tokens\":3,\"completion_tokens\":4," ++
    "\"total_tokens\":7\x7d\x7d"

def completionFields (said : String) : Map :=
  [("choices", .array [.object
      [("finish_reason", .string "stop"), ("index", .number (.posInt 0)),
        ("message", .object [("content", .string said), ("role", .string "assistant")])]]),
    ("id", .string "chatcmpl-1"), ("model", .string "gpt"), ("object", .string "chat.completion"),
    ("usage", .object
      [("completion_tokens", .number (.posInt 4)), ("prompt_tokens", .number (.posInt 3)),
        ("total_tokens", .number (.posInt 7))])]

/-- Two users speak, and each is answered. -/
def billedTexts : List (String × Value) :=
  [(billedText "hi", .object (billedFields "hi")),
    (billedText "tell me", .object (billedFields "tell me")),
    (completionText "hello", .object (completionFields "hello")),
    (completionText "a secret", .object (completionFields "a secret"))]

/-- The reply of an upstream that says something. -/
def saying (said : String) : RawReply where
  delay := some 0
  decision := .attempted (.ok
    { status := 200
      contentType := some "application/json"
      chunks := [.ok (utf8 (completionText said))] })

/-- A gateway with a recipe of one model, which says hello. -/
def billedWorld : Surroundings Unit :=
  { strayWorld with
    serde := .ofTexts billedTexts
    runtime := { seededRuntime with config := strayWorld.runtime.config }
    chat := fun c => chatReply (.ofTexts billedTexts) (fun _ => false) c (saying "hello") }

def billedRequest : Request := { strayRequest with body := some (utf8 (billedText "hi")) }

lemma lawful_billedTexts (bytes : Bytes) (v : Value)
    (h : (SerdeJson.ofTexts billedTexts).parse bytes = .ok v) : Lawful v := by
  have hall : billedTexts.all fun text => text.2.isLawful := by decide +kernel
  exact SerdeJson.lawful_ofTexts (List.all_eq_true.1 hall) h

lemma parse_billed {s : String} {v : Value} (h : (s, v) ∈ billedTexts) :
    (SerdeJson.ofTexts billedTexts).parse (utf8 s) = .ok v :=
  SerdeJson.parse_ofTexts (by decide +kernel) h

lemma preRoute_billedWorld :
    preRoute billedWorld billedRequest =
      .ok (.moa "k" "r" (utf8 (billedText "hi")) "moa/r" billedWorld.runtime) := rfl

theorem bill_is_booked_billed :
    ∃ body, (chatCompletions billedWorld billedRequest).result.body = .json body ∧
      Bills body
        (Moa.total
          ((chatCompletions billedWorld billedRequest).rows.filterMap UsageRecord.promptTokens))
        (Moa.total
          ((chatCompletions billedWorld billedRequest).rows.filterMap
            UsageRecord.completionTokens)) := by
  have hanswers : Answering billedWorld :=
    answering_of_replies lawful_billedTexts fun _ => rfl
  exact bill_is_booked hanswers preRoute_billedWorld (by decide +kernel)

end App

end Moaray
