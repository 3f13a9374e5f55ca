import Moaray.Core.Usage
import Moaray.Moa.RunSpec
import Moaray.Providers.Anthropic
import Moaray.Providers.OpenAi

/-!
# The usage rows of the server

A successful non-streaming passthrough books one row, and a MoA run one for every arm.  The tokens
of a row come out of the upstream's body on four ways, one for each adapter and path.

* `passthroughRow`, `bookMoaArm` — the two ways to build a row.
* `Booked` — which rows are booked for a body, through which adapter and on which path.
* `bookedTokens`, `booked_tokens` — the tokens each way books.
* `tokens_booked` — when a row says exactly what the body's usage carries, and when both paths of
  an adapter book the same.
* `zero_for_missing` — a field the body lacks, booked as zero.

The OpenAI passthrough taps the body and reads signed integers, with a zero for a side that is
missing alone; its structured path keeps the usage as JSON and reads each side by itself.  The
Anthropic adapter reads unsigned integers with zeros for what is missing, and either rereads them
as signed ones or prints them into a usage that is read again.  So the four ways differ in which
fields they take for absent, and in what they make of a count that does not fit.

**Design.**  `bookedTokens` is the four ways as one table, a function of the usage.
`booked_tokens` ties it to the calls of the adapters, and everything after that is arithmetic on
one field at a time: `Measured` and `Consistent` are where the entries of the table agree with what
is carried, and with each other.
-/

namespace Moaray

open Framework Json

/-! ## Booking -/

/-- What a row is booked with besides the call itself: the request, the caller, and a snapshot of
the prices. -/
structure Booking where
  requestId : String
  tsUnixMs : Int64
  callerKeyId : String
  /-- The models of the routed snapshot. -/
  models : Table String ModelConfig

/-- The `(prompt, completion)` price of a model. -/
def modelPrices (models : Table String ModelConfig) (model : String) : Option ℤ × Option ℤ :=
  match models[model]? with
  | some m => (m.pricePromptNanoPerMtok, m.priceCompletionNanoPerMtok)
  | none => (none, none)

/-- The row of a successful non-streaming passthrough.  Both tokens come from the response or
neither does, and the prices are those of the published configuration. -/
def passthroughRow (b : Booking) (model upstreamId : String) (raw : RawResponse) : UsageRecord :=
  let (priceP, priceC) := modelPrices b.models model
  let (pt, ct) := match raw.usage with
    | some (p, c) => (some p, some c)
    | none => (none, none)
  { requestId := b.requestId
    tsUnixMs := b.tsUnixMs
    path := .passthrough
    arm := .passthrough
    model
    upstreamId
    callerKeyId := b.callerKeyId
    promptTokens := pt
    completionTokens := ct
    pricePromptNanoPerMtok := priceP
    priceCompletionNanoPerMtok := priceC
    costNanoUsd := computeCost pt ct priceP priceC
    status := usageStatus pt ct priceP priceC }

/-- The row of one arm of a MoA run.  An arm that answered has the status of its tokens and prices;
the others are booked as timed out or failed. -/
def bookMoaArm (b : Booking) (armKind : UsageArm) (arm : Moa.ArmOutcome) : UsageRecord :=
  let (priceP, priceC) := modelPrices b.models arm.model
  { requestId := b.requestId
    tsUnixMs := b.tsUnixMs
    path := .moa
    arm := armKind
    model := arm.model
    upstreamId := arm.upstreamId
    callerKeyId := b.callerKeyId
    promptTokens := arm.promptTokens
    completionTokens := arm.completionTokens
    pricePromptNanoPerMtok := priceP
    priceCompletionNanoPerMtok := priceC
    costNanoUsd := computeCost arm.promptTokens arm.completionTokens priceP priceC
    status := match arm.status with
      | .timeout => .timeout
      | .error => .failed
      | .ok => usageStatus arm.promptTokens arm.completionTokens priceP priceC }

namespace Accounting

/-! ## What a body carries -/

/-- `v` is the integer `z`. -/
def IsInteger (v : Value) (z : ℤ) : Prop :=
  (∃ n : UInt64, v = .number (.posInt n) ∧ z = n.toNat) ∨
    ∃ n : Int64, v = .number (.negInt n) ∧ z = n.toInt

def bodyUsage (serde : SerdeJson) (body : Bytes) : Option Value :=
  (serde.parse body).toOption.bind (·.get "usage")

/-- A usage carries a field as an integer; one that is no object carries none. -/
def Carries (usage : Option Value) (field : String) (n : Int64) : Prop :=
  ∃ v, usage.bind (·.get field) = some v ∧ IsInteger v n.toInt

/-- The names an upstream has for prompt and completion tokens. -/
def promptField : ProviderType → String
  | .openaiCompat => "prompt_tokens"
  | .anthropic => "input_tokens"

def completionField : ProviderType → String
  | .openaiCompat => "completion_tokens"
  | .anthropic => "output_tokens"

/-- A row holds the tokens the usage carries, and no others: a side that is not carried is absent
from the row. -/
structure Exact (adapter : ProviderType) (usage : Option Value) (row : UsageRecord) : Prop where
  prompt : ∀ n, row.promptTokens = some n ↔ Carries usage (promptField adapter) n
  completion : ∀ n, row.completionTokens = some n ↔ Carries usage (completionField adapter) n

/-! ## Which rows are booked -/

/-- `Booked serde repeats adapter path body row`: a call through an adapter ended well with an
upstream body, and `row` was booked for it on a path. -/
inductive Booked (serde : SerdeJson) (repeats : Bytes → Bool) :
    ProviderType → UsagePath → Bytes → UsageRecord → Prop
  | openaiPassthrough {p : OpenAiProvider} {ctx : ReqCtx} {rawBody body : Bytes}
      {resp : UpstreamResponse} {raw : RawResponse} (b : Booking) (model : String)
      (hbody : collectBytes resp.chunks = .ok body)
      (hcall : (p.passthrough serde ctx rawBody (.ok resp)).2 = .ok raw) :
      Booked serde repeats .openaiCompat .passthrough body (passthroughRow b model p.upstreamId raw)
  | openaiChat {p : OpenAiProvider} {ctx : ReqCtx} {req : ChatRequest} {body : Bytes}
      {resp : UpstreamResponse} {response : ChatResponse} {arm : Moa.ArmOutcome} (b : Booking)
      (model : String) (armKind : UsageArm) (hbody : collectBytes resp.chunks = .ok body)
      (hcall : (p.chat serde repeats ctx req (.ok resp)).2 = .ok response)
      (harm : Moa.Records arm model p.upstreamId (.answered response)) :
      Booked serde repeats .openaiCompat .moa body (bookMoaArm b armKind arm)
  | anthropicPassthrough {p : AnthropicProvider} {ctx : ReqCtx} {rawBody body : Bytes}
      {resp : UpstreamResponse} {raw : RawResponse} (b : Booking) (model : String)
      (hbody : collectBytes resp.chunks = .ok body)
      (hcall : (p.passthrough serde ctx rawBody (.ok resp)).result = .ok raw) :
      Booked serde repeats .anthropic .passthrough body (passthroughRow b model p.upstreamId raw)
  | anthropicChat {p : AnthropicProvider} {ctx : ReqCtx} {req : ChatRequest} {body : Bytes}
      {resp : UpstreamResponse} {response : ChatResponse} {arm : Moa.ArmOutcome} (b : Booking)
      (model : String) (armKind : UsageArm) (hbody : collectBytes resp.chunks = .ok body)
      (hcall : (p.chat serde ctx req (.ok resp)).result = .ok response)
      (harm : Moa.Records arm model p.upstreamId (.answered response)) :
      Booked serde repeats .anthropic .moa body (bookMoaArm b armKind arm)

/-! ## The condition -/

/-- A field is an unsigned integer (or a zero). -/
def Unsigned (field : Option Value) : Prop :=
  (field.bind Value.asU64).isSome ∨ field.bind Value.asI64 = some 0

/-- A field is not an unsigned integer too large for an `i64`. -/
def Fits (field : Option Value) : Prop :=
  ∀ n, field.bind Value.asU64 = some n → n ≤ Int64.maxValue.toUInt64

/-- Where a row holds the tokens the usage carries, by adapter and path.  The structured path of an
OpenAI-compatible upstream always does, and the others have their conditions. -/
def Measured : ProviderType → UsagePath → Option Value → Prop
  | .openaiCompat, .passthrough, usage =>
      (∃ n, Carries usage "prompt_tokens" n) ↔ ∃ n, Carries usage "completion_tokens" n
  | .openaiCompat, .moa, _ => True
  | .anthropic, .passthrough, usage =>
      ∀ u, usage = some u → ∀ field ∈ ["input_tokens", "output_tokens"],
        Unsigned (u.get field) ∧ Fits (u.get field)
  | .anthropic, .moa, usage =>
      ∀ u, usage = some u → ∀ field ∈ ["input_tokens", "output_tokens"], Unsigned (u.get field)

/-- Where both paths of an adapter book the same tokens: a usage with both sides or none, or one
whose counts fit an `i64`. -/
def Consistent : ProviderType → Option Value → Prop
  | .openaiCompat, usage =>
      (∃ n, Carries usage "prompt_tokens" n) ↔ ∃ n, Carries usage "completion_tokens" n
  | .anthropic, usage =>
      ∀ u, usage = some u → ∀ field ∈ ["input_tokens", "output_tokens"], Fits (u.get field)

/-! ## Field by field -/

/-- The integer a usage carries in a field. -/
def carried (usage : Option Value) (field : String) : Option Int64 :=
  (usage.bind (·.get field)).bind Value.asI64

lemma toInt_toInt64 (m : UInt64) :
    m.toInt64.toInt = if m.toNat < 2 ^ 63 then (m.toNat : ℤ) else m.toNat - 2 ^ 64 := by
  have hcond := BitVec.toInt_eq_toNat_cond m.toBitVec
  have hint : m.toInt64.toInt = m.toBitVec.toInt := rfl
  have hnat : m.toBitVec.toNat = m.toNat := rfl
  rw [hint, hcond, hnat]
  split <;> split <;> omega

lemma le_maxValue_iff {m : UInt64} :
    m ≤ Int64.maxValue.toUInt64 ↔ m.toNat < 2 ^ 63 := by
  have hmax : Int64.maxValue.toUInt64.toNat = 2 ^ 63 - 1 := by decide
  rw [UInt64.le_iff_toNat_le, hmax]
  omega

lemma posInt_asI64_iff {m : UInt64} {n : Int64} :
    (Number.posInt m).asI64 = some n ↔ n.toInt = m.toNat := by
  have hwrap := toInt_toInt64 m
  show (if m ≤ Int64.maxValue.toUInt64 then some m.toInt64 else none) = some n ↔ _
  by_cases hle : m ≤ Int64.maxValue.toUInt64
  · rw [if_pos hle, Option.some.injEq, ← Int64.toInt_inj, hwrap, if_pos (le_maxValue_iff.1 hle)]
    exact eq_comm
  · have hlarge : ¬ m.toNat < 2 ^ 63 := fun h => hle (le_maxValue_iff.2 h)
    have hn : n.toInt < 2 ^ 63 := n.toInt_lt
    rw [if_neg hle]
    constructor
    · nofun
    · intro h
      omega

/-- `as_i64` reads the integers of its range, and nothing else. -/
lemma asI64_eq_some_iff {v : Value} {n : Int64} : v.asI64 = some n ↔ IsInteger v n.toInt := by
  unfold IsInteger
  rcases v with _ | _ | (m | k | x) | _ | _ | _
  · simp [Value.asI64]
  · simp [Value.asI64]
  · simp [Value.asI64, posInt_asI64_iff]
  · simp [Value.asI64, Number.asI64, Int64.toInt_inj, eq_comm]
  · simp [Value.asI64, Number.asI64]
  · simp [Value.asI64]
  · simp [Value.asI64]
  · simp [Value.asI64]

lemma carries_iff {usage : Option Value} {field : String} {n : Int64} :
    Carries usage field n ↔ carried usage field = some n := by
  unfold Carries carried
  rw [Option.bind_eq_some_iff]
  simp only [asI64_eq_some_iff]

/-- A row is exact when its tokens are the integers carried. -/
lemma exact_iff {adapter : ProviderType} {usage : Option Value} {row : UsageRecord} :
    Exact adapter usage row ↔
      row.promptTokens = carried usage (promptField adapter) ∧
        row.completionTokens = carried usage (completionField adapter) := by
  constructor
  · intro h
    constructor
    · ext n
      rw [h.prompt n, carries_iff]
    · ext n
      rw [h.completion n, carries_iff]
  · rintro ⟨hprompt, hcompletion⟩
    constructor
    · intro n
      rw [hprompt, carries_iff]
    · intro n
      rw [hcompletion, carries_iff]

/-- An unsigned integer of a usage, zero if there is none. -/
def unsignedOr0 (field : Option Value) : UInt64 := (field.bind Value.asU64).getD 0

lemma bind_asU64_eq_some {field : Option Value} {m : UInt64}
    (h : field.bind Value.asU64 = some m) : field = some (.number (.posInt m)) := by
  rcases field with _ | _ | _ | (k | k | x) | _ | _ | _
  all_goals cases h
  rfl

lemma asI64_ofU64 (m : UInt64) :
    (Value.ofU64 m).asI64 = if m ≤ Int64.maxValue.toUInt64 then some m.toInt64 else none := rfl

/-- Reread as an `i64`, it is what is printed and read again, just where the field fits. -/
lemma toInt64_eq_asI64_iff {field : Option Value} :
    some (unsignedOr0 field).toInt64 = (Value.ofU64 (unsignedOr0 field)).asI64 ↔ Fits field := by
  unfold Fits unsignedOr0
  rw [asI64_ofU64]
  cases h : field.bind Value.asU64 with
  | none => simp
  | some m =>
      show some m.toInt64 = (if m ≤ _ then some m.toInt64 else none) ↔ _
      by_cases hle : m ≤ Int64.maxValue.toUInt64
      · simp [hle]
      · simp [hle]

/-- Printed and read again, it is the integer carried just where the field is unsigned. -/
lemma asI64_unsignedOr0_iff {field : Option Value} :
    (Value.ofU64 (unsignedOr0 field)).asI64 = field.bind Value.asI64 ↔ Unsigned field := by
  unfold Unsigned unsignedOr0
  cases h : field.bind Value.asU64 with
  | none =>
      have hzero : (Value.ofU64 0).asI64 = some 0 := rfl
      simp [hzero, eq_comm]
  | some m =>
      rw [bind_asU64_eq_some h]
      simp [Value.ofU64]

/-- Reread as an `i64`, it is the integer carried just where the field is unsigned and fits. -/
lemma toInt64_unsignedOr0_iff {field : Option Value} :
    some (unsignedOr0 field).toInt64 = field.bind Value.asI64 ↔ Unsigned field ∧ Fits field := by
  constructor
  · intro h
    have hfits : Fits field := by
      intro m hm
      have hprinted : field.bind Value.asI64 = (Value.ofU64 m).asI64 := by
        rw [bind_asU64_eq_some hm]
        rfl
      rw [hprinted, asI64_ofU64] at h
      by_contra hle
      rw [if_neg hle] at h
      cases h
    rw [toInt64_eq_asI64_iff.2 hfits] at h
    exact ⟨asI64_unsignedOr0_iff.1 h, hfits⟩
  · rintro ⟨hunsigned, hfits⟩
    exact (toInt64_eq_asI64_iff.2 hfits).trans (asI64_unsignedOr0_iff.2 hunsigned)

/-! ## The tokens each way books -/

/-- The tokens each adapter and path books for a usage.  The two passthrough paths put zero for a
side that is missing. -/
def bookedTokens : ProviderType → UsagePath → Option Value → Option Int64 × Option Int64
  | .openaiCompat, .passthrough, usage =>
      match carried usage "prompt_tokens", carried usage "completion_tokens" with
      | none, none => (none, none)
      | p, c => (some (p.getD 0), some (c.getD 0))
  | .openaiCompat, .moa, usage => (carried usage "prompt_tokens", carried usage "completion_tokens")
  | .anthropic, .passthrough, usage =>
      (usage.map fun u => (unsignedOr0 (u.get "input_tokens")).toInt64,
        usage.map fun u => (unsignedOr0 (u.get "output_tokens")).toInt64)
  | .anthropic, .moa, usage =>
      (usage.bind fun u => (Value.ofU64 (unsignedOr0 (u.get "input_tokens"))).asI64,
        usage.bind fun u => (Value.ofU64 (unsignedOr0 (u.get "output_tokens"))).asI64)

/-- The tapped tokens of a passthrough response fill its row. -/
lemma passthroughRow_tokens (b : Booking) (model upstreamId : String) (raw : RawResponse) :
    (passthroughRow b model upstreamId raw).promptTokens = raw.usage.map Prod.fst ∧
      (passthroughRow b model upstreamId raw).completionTokens = raw.usage.map Prod.snd := by
  unfold passthroughRow
  cases raw.usage <;> exact ⟨rfl, rfl⟩

/-- The tokens of an answer fill the row of its arm. -/
lemma bookMoaArm_tokens (b : Booking) (armKind : UsageArm) {arm : Moa.ArmOutcome}
    {model upstreamId : String} {response : ChatResponse}
    (harm : Moa.Records arm model upstreamId (.answered response)) :
    (bookMoaArm b armKind arm).promptTokens = carried response.usage "prompt_tokens" ∧
      (bookMoaArm b armKind arm).completionTokens = carried response.usage "completion_tokens" := by
  obtain ⟨latencyMs, rfl⟩ := harm
  show (Moa.extractTokens response.usage).1 = _ ∧ (Moa.extractTokens response.usage).2 = _
  cases response.usage <;> exact ⟨rfl, rfl⟩

/-- The tap books what the usage carries, with a zero for a single missing field. -/
lemma parseUsageTokens_tokens (serde : SerdeJson) (bytes : Bytes) :
    ((parseUsageTokens serde bytes).map Prod.fst, (parseUsageTokens serde bytes).map Prod.snd) =
      bookedTokens .openaiCompat .passthrough (bodyUsage serde bytes) := by
  unfold parseUsageTokens bodyUsage bookedTokens
  cases (serde.parse bytes).toOption with
  | none => rfl
  | some v =>
      simp only [Option.bind_eq_bind, Option.bind_some]
      cases v.get "usage" with
      | none => rfl
      | some u =>
          simp only [Option.bind_some, carried]
          cases u with
          | object fields =>
              cases (Value.get (.object fields) "prompt_tokens").bind Value.asI64 <;>
                cases (Value.get (.object fields) "completion_tokens").bind Value.asI64 <;> rfl
          | _ => rfl

/-- The usage of a typed response: that of its value, unless it is `null`. -/
lemma fromValue_usage {v : Value} {response : ChatResponse}
    (h : ChatResponse.fromValue v = some response) :
    response.usage = (v.get "usage").bind fun u => if u.isNull then none else some u := by
  obtain ⟨m, hm, h⟩ := Option.bind_eq_some_iff.1 h
  obtain ⟨_, -, h⟩ := Option.bind_eq_some_iff.1 h
  obtain ⟨_, -, h⟩ := Option.bind_eq_some_iff.1 h
  obtain ⟨_, -, h⟩ := Option.bind_eq_some_iff.1 h
  obtain ⟨_, -, h⟩ := Option.bind_eq_some_iff.1 h
  obtain rfl := Option.some.inj h
  cases v with
  | object fields =>
      obtain rfl : fields = m := Option.some.inj hm
      show ChatResponse.optValue fields "usage" = (Map.get fields "usage").bind _
      unfold ChatResponse.optValue
      rcases Map.get fields "usage" with _ | _ | _ | _ | _ | _ | _ <;> rfl
  | _ => cases hm

/-- A typed response carries in its usage what the body does. -/
lemma fromSlice_carried {serde : SerdeJson} {repeats : Bytes → Bool} {bytes : Bytes}
    {response : ChatResponse} (h : ChatResponse.fromSlice serde repeats bytes = some response)
    (field : String) : carried response.usage field = carried (bodyUsage serde bytes) field := by
  obtain ⟨-, -, h⟩ := Option.bind_eq_some_iff.1 h
  obtain ⟨v, hv, h⟩ := Option.bind_eq_some_iff.1 h
  have husage := fromValue_usage h
  unfold bodyUsage
  rw [hv, Option.bind_some, husage]
  -- A `null` usage is dropped; it carries nothing either way.
  rcases v.get "usage" with _ | _ | _ | _ | _ | _ | _ <;> rfl

lemma bodyUsage_of_parse {serde : SerdeJson} {body : Bytes} {v : Value}
    (h : serde.parse body = .ok v) : bodyUsage serde body = v.get "usage" := by
  unfold bodyUsage
  rw [h]
  rfl

/-- What was booked for a body is what its adapter and path book for its usage. -/
theorem booked_tokens {serde : SerdeJson} {repeats : Bytes → Bool} {adapter : ProviderType}
    {path : UsagePath} {body : Bytes} {row : UsageRecord}
    (h : Booked serde repeats adapter path body row) :
    (row.promptTokens, row.completionTokens) =
      bookedTokens adapter path (bodyUsage serde body) := by
  cases h with
  | openaiPassthrough b model hbody hcall =>
      obtain ⟨bytes, hbytes, -, husage⟩ := OpenAiProvider.passthrough_ok hcall
      obtain rfl : bytes = body := Except.ok.inj (hbytes.symm.trans hbody)
      obtain ⟨hprompt, hcompletion⟩ := passthroughRow_tokens b model _ _
      rw [hprompt, hcompletion, husage]
      exact parseUsageTokens_tokens serde bytes
  | openaiChat b model armKind hbody hcall harm =>
      obtain ⟨bytes, hbytes, hresponse⟩ := OpenAiProvider.chat_ok hcall
      obtain rfl : bytes = body := Except.ok.inj (hbytes.symm.trans hbody)
      obtain ⟨hprompt, hcompletion⟩ := bookMoaArm_tokens b armKind harm
      rw [hprompt, hcompletion, fromSlice_carried hresponse, fromSlice_carried hresponse]
      rfl
  | anthropicPassthrough b model hbody hcall =>
      obtain ⟨bytes, anthropic, hbytes, hparse, husage⟩ := AnthropicProvider.passthrough_ok hcall
      obtain rfl : bytes = body := Except.ok.inj (hbytes.symm.trans hbody)
      obtain ⟨hprompt, hcompletion⟩ := passthroughRow_tokens b model _ _
      rw [hprompt, hcompletion, husage, bodyUsage_of_parse hparse, AnthropicProvider.rawUsage]
      cases anthropic.get "usage" <;> rfl
  | anthropicChat b model armKind hbody hcall harm =>
      obtain ⟨bytes, anthropic, openai, chat, hbytes, hparse, hopenai, hchat, hresponse⟩ :=
        AnthropicProvider.chat_ok hcall
      obtain rfl : bytes = body := Except.ok.inj (hbytes.symm.trans hbody)
      obtain ⟨hprompt, hcompletion⟩ := bookMoaArm_tokens b armKind harm
      obtain ⟨u, hu, hnull, hpt, hct⟩ := AnthropicMap.anthropicToOpenai_usage hopenai
      have husage : chat.usage = some u := by
        rw [fromValue_usage hchat, hu]
        simp [hnull]
      rw [hprompt, hcompletion, hresponse, bodyUsage_of_parse hparse]
      cases husage' : anthropic.get "usage" with
      | none => rfl
      | some w =>
          rw [husage'] at hpt hct
          simp only [Option.isNone_some, Bool.false_eq_true, if_false, carried, husage,
            Option.bind_some, hpt, hct]
          rfl

/-! ## When the rows are right -/

lemma exists_carries_iff {usage : Option Value} {field : String} :
    (∃ n, Carries usage field n) ↔ (carried usage field).isSome := by
  simp only [carries_iff, Option.isSome_iff_exists]

/-- The tap is right when both fields are there or neither is. -/
lemma tapped_iff (p c : Option Int64) :
    (match p, c with
      | none, none => (none, none)
      | p, c => (some (p.getD 0), some (c.getD 0))) = (p, c) ↔ (p.isSome ↔ c.isSome) := by
  cases p <;> cases c <;> simp

/-- A row says what the usage carries just where its adapter and path measure it. -/
lemma exact_bookedTokens_iff (adapter : ProviderType) (path : UsagePath) (usage : Option Value) :
    bookedTokens adapter path usage =
        (carried usage (promptField adapter), carried usage (completionField adapter)) ↔
      Measured adapter path usage := by
  cases adapter with
  | openaiCompat =>
      cases path with
      | passthrough =>
          rw [Measured, exists_carries_iff, exists_carries_iff]
          exact tapped_iff _ _
      | moa => simp [bookedTokens, Measured, promptField, completionField]
  | anthropic =>
      cases usage with
      | none => cases path <;> simp [bookedTokens, Measured, carried]
      | some u =>
          cases path with
          | passthrough =>
              simp [bookedTokens, Measured, carried, promptField, completionField,
                ← toInt64_unsignedOr0_iff]
          | moa =>
              simp [bookedTokens, Measured, carried, promptField, completionField,
                ← asI64_unsignedOr0_iff]

/-- The two paths of an adapter book the same tokens just where it is consistent. -/
lemma bookedTokens_agree_iff (adapter : ProviderType) (usage : Option Value) :
    bookedTokens adapter .passthrough usage = bookedTokens adapter .moa usage ↔
      Consistent adapter usage := by
  cases adapter with
  | openaiCompat =>
      rw [Consistent, exists_carries_iff, exists_carries_iff]
      exact tapped_iff _ _
  | anthropic =>
      cases usage with
      | none => simp [bookedTokens, Consistent]
      | some u => simp [bookedTokens, Consistent, ← toInt64_eq_asI64_iff]

/-- A booked row holds exactly the tokens its body's usage carries just where its adapter and path
measure it; and two rows booked for a body on the two paths of an adapter hold the same tokens
just where the adapter is consistent. -/
theorem tokens_booked {serde : SerdeJson} {repeats : Bytes → Bool} {adapter : ProviderType}
    {path : UsagePath} {body : Bytes} {row : UsageRecord}
    (h : Booked serde repeats adapter path body row) :
    (Exact adapter (bodyUsage serde body) row ↔ Measured adapter path (bodyUsage serde body)) ∧
      ∀ path' row', path' ≠ path → Booked serde repeats adapter path' body row' →
        ((row.promptTokens, row.completionTokens) = (row'.promptTokens, row'.completionTokens) ↔
          Consistent adapter (bodyUsage serde body)) := by
  have htokens := booked_tokens h
  constructor
  · rw [exact_iff, ← Prod.mk.injEq, htokens]
    exact exact_bookedTokens_iff adapter path _
  · intro path' row' hpath h'
    rw [htokens, booked_tokens h', ← bookedTokens_agree_iff]
    cases path <;> cases path'
    · exact (hpath rfl).elim
    · exact Iff.rfl
    · exact eq_comm
    · exact (hpath rfl).elim

/-! ### A body with half a usage -/

/-- A completion whose usage has no completion tokens. -/
def halfBody : Bytes := utf8 "\x7b\"usage\":\x7b\"prompt_tokens\":5\x7d\x7d"

def halfSerde : SerdeJson where
  parse body :=
    if body = halfBody then .ok (.object [("usage", .object [("prompt_tokens", .ofU64 5)])])
    else .error "expected value at line 1 column 1"
  print _ := "null"

def halfProvider : OpenAiProvider where
  upstreamId := "gpt"
  baseUrl := "https://upstream"
  apiKey := "k"

def halfCtx : ReqCtx where
  requestId := "r"
  deadline := 0
  callerKeyId := "k"
  model := "gpt"

def halfReply : UpstreamResponse where
  status := 200
  contentType := none
  chunks := [.ok halfBody]

def halfBooking : Booking where
  requestId := "r"
  tsUnixMs := 0
  callerKeyId := "k"
  models := ∅

lemma halfReply_body : collectBytes halfReply.chunks = .ok halfBody := by
  simp [collectBytes, halfReply, Except.map]

lemma halfSerde_parse :
    halfSerde.parse halfBody =
      .ok (.object [("usage", .object [("prompt_tokens", .ofU64 5)])]) := by
  simp [halfSerde]

/-- On the passthrough path the missing field is filled in. -/
lemma booked_half_passthrough :
    ∃ row, Booked halfSerde (fun _ => false) .openaiCompat .passthrough halfBody row ∧
      row.completionTokens = some 0 := by
  have htap : parseUsageTokens halfSerde halfBody = some (5, 0) := by
    unfold parseUsageTokens
    rw [halfSerde_parse]
    rfl
  have hcall : (halfProvider.passthrough halfSerde halfCtx [] (.ok halfReply)).2 =
      .ok { status := 200, contentType := none, body := .once halfBody, usage := some (5, 0) } := by
    show collectResponse halfSerde halfReply = _
    unfold collectResponse
    rw [halfReply_body, ← htap]
    rfl
  exact ⟨_, .openaiPassthrough halfBooking "gpt" halfReply_body hcall, rfl⟩

/-- The missing tokens are booked as zero on the passthrough path. -/
theorem zero_for_missing :
    ∃ row, Booked halfSerde (fun _ => false) .openaiCompat .passthrough halfBody row ∧
      row.completionTokens = some 0 ∧
      ¬ Exact .openaiCompat (bodyUsage halfSerde halfBody) row := by
  obtain ⟨row, hbooked, hcompletion⟩ := booked_half_passthrough
  refine ⟨row, hbooked, hcompletion, fun h => ?_⟩
  have hnone : carried (bodyUsage halfSerde halfBody) "completion_tokens" = none := by
    rw [bodyUsage_of_parse halfSerde_parse]
    rfl
  have hzero := carries_iff.1 ((h.completion 0).1 hcompletion)
  exact absurd (hnone.symm.trans hzero) (Option.some_ne_none 0).symm

/-- A structured request to that upstream. -/
def halfRequest : ChatRequest where
  model := "gpt"
  messages := []
  stream := none
  maxTokens := none
  temperature := none
  topP := none
  extra := []

/-- On the MoA path the same body is booked with the one field it has. -/
lemma booked_half :
    ∃ row, Booked halfSerde (fun _ => false) .openaiCompat .moa halfBody row ∧
      row.status = .okNoUsage ∧ row.promptTokens = some 5 ∧ row.completionTokens = none := by
  have hslice : ∃ response,
      ChatResponse.fromSlice halfSerde (fun _ => false) halfBody = some response := by
    unfold ChatResponse.fromSlice
    rw [halfSerde_parse]
    exact ⟨_, rfl⟩
  obtain ⟨response, hresponse⟩ := hslice
  have hcall : (halfProvider.chat halfSerde (fun _ => false) halfCtx halfRequest
      (.ok halfReply)).2 = .ok response :=
    OpenAiProvider.chat_of_fromSlice rfl halfReply_body hresponse
  have harm : Moa.Records (Moa.outcomeOf "gpt" "gpt" 0 (.answered response)) "gpt"
      halfProvider.upstreamId (.answered response) := ⟨0, rfl⟩
  have hbooked := Booked.openaiChat halfBooking "gpt" .proposer halfReply_body hcall harm
  have htokens := booked_tokens hbooked
  rw [bodyUsage_of_parse halfSerde_parse] at htokens
  obtain ⟨hprompt, hcompletion⟩ := Prod.mk.inj htokens
  refine ⟨_, hbooked, ?_, hprompt, hcompletion⟩
  have hnone : (Moa.outcomeOf "gpt" "gpt" 0 (.answered response)).completionTokens = none :=
    hcompletion
  have hstatus : (Moa.outcomeOf "gpt" "gpt" 0 (.answered response)).status = .ok := rfl
  simp only [bookMoaArm, hstatus, hnone, usageStatus, Option.isSome_none, Bool.and_false]

/-- On the structured path the row of that body says what the usage carries. -/
theorem tokens_booked_half :
    ∃ row, Booked halfSerde (fun _ => false) .openaiCompat .moa halfBody row ∧
      Exact .openaiCompat (bodyUsage halfSerde halfBody) row := by
  obtain ⟨row, hbooked, -⟩ := booked_half
  exact ⟨row, hbooked, (tokens_booked hbooked).1.2 trivial⟩

end Accounting

end Moaray
