import Moaray.Gateway.Accounting

/-!
# What the status of a usage row says

The status of a row, its tokens and its cost are computed by three functions from the same partial
inputs.

* `StatusLaw` — the fields a status promises and the ones it rules out.
* `statusLaw_usageStatus_iff` — when a row with the status of its own tokens and prices keeps it.
* `bookMoaArm_law_iff`, `passthroughRow_law` — when the rows of the two paths keep it.
* `status_law_iff` — the bodies whose row does, for each adapter and path; `lone_token` is one
  whose row does not.

A status is decided by whether tokens are there and whether prices are; the cost needs both sides
of both.  They come apart where one side of the tokens was measured and the other was not: the
status then says that there was no usage, and the row still has a count.

**Design.**  The passthrough path measures both sides or neither, by construction, and its rows
keep the law unconditionally.  So the condition is about arms, and it names the bodies: those whose
usage has one of the two fields.
-/

namespace Moaray

open Framework Json

/-- What the status of a row says about its fields, as whoever reads the table takes it. -/
structure StatusLaw (row : UsageRecord) : Prop where
  /-- A priced measurement has everything, and nothing else does. -/
  ok :
    row.status = .ok ↔
      row.promptTokens.isSome ∧ row.completionTokens.isSome ∧
        row.pricePromptNanoPerMtok.isSome ∧ row.priceCompletionNanoPerMtok.isSome ∧
        row.costNanoUsd.isSome
  /-- Without a measurement there are no tokens and no cost. -/
  unmeasured :
    row.status = .okNoUsage ∨ row.status = .failed ∨ row.status = .timeout →
      row.promptTokens = none ∧ row.completionTokens = none ∧ row.costNanoUsd = none
  /-- A measurement without a price has no cost. -/
  unpriced :
    row.status = .unpriced →
      row.promptTokens.isSome ∧ row.completionTokens.isSome ∧
        (row.pricePromptNanoPerMtok = none ∨ row.priceCompletionNanoPerMtok = none) ∧
        row.costNanoUsd = none

namespace Accounting

/-! ## Tokens, prices, cost and status -/

/-- There is a cost exactly for measured tokens under both prices. -/
lemma isSome_computeCost (pt ct : Option Int64) (pp cp : Option ℤ) :
    (computeCost pt ct pp cp).isSome = (pt.isSome && ct.isSome && (pp.isSome && cp.isSome)) := by
  cases pt <;> cases ct <;> cases pp <;> cases cp <;> rfl

/-- A row with the cost and the status of its own tokens and prices keeps the law just when it
has both tokens or neither. -/
lemma statusLaw_usageStatus_iff {row : UsageRecord}
    (hcost : row.costNanoUsd = computeCost row.promptTokens row.completionTokens
      row.pricePromptNanoPerMtok row.priceCompletionNanoPerMtok)
    (hstatus : row.status = usageStatus row.promptTokens row.completionTokens
      row.pricePromptNanoPerMtok row.priceCompletionNanoPerMtok) :
    StatusLaw row ↔ (row.promptTokens.isSome ↔ row.completionTokens.isSome) := by
  have hsome := isSome_computeCost row.promptTokens row.completionTokens
    row.pricePromptNanoPerMtok row.priceCompletionNanoPerMtok
  rw [← hcost] at hsome
  have hnone : row.costNanoUsd.isSome = false → row.costNanoUsd = none := by simp
  constructor
  · intro h
    by_cases hboth : (row.promptTokens.isSome && row.completionTokens.isSome) = true
    · obtain ⟨hp, hc⟩ := Bool.and_eq_true_iff.1 hboth
      exact ⟨fun _ => hc, fun _ => hp⟩
    · have hst : row.status = .okNoUsage := by
        rw [hstatus, usageStatus, Bool.eq_false_of_not_eq_true hboth]
      obtain ⟨hpt, hct, -⟩ := h.unmeasured (.inl hst)
      rw [hpt, hct]
  · intro hboth
    by_cases hp : row.promptTokens.isSome
    · have hc : row.completionTokens.isSome := hboth.1 hp
      by_cases hprices :
          (row.pricePromptNanoPerMtok.isSome && row.priceCompletionNanoPerMtok.isSome) = true
      · have hst : row.status = .ok := by simp [hstatus, usageStatus, hp, hc, hprices]
        have hcost' : row.costNanoUsd.isSome := by simp [hsome, hp, hc, hprices]
        obtain ⟨hpp, hcp⟩ := Bool.and_eq_true_iff.1 hprices
        exact ⟨⟨fun _ => ⟨hp, hc, hpp, hcp, hcost'⟩, fun _ => hst⟩, by simp [hst], by simp [hst]⟩
      · have hst : row.status = .unpriced := by simp [hstatus, usageStatus, hp, hc, hprices]
        have hcost' : row.costNanoUsd.isSome = false := by simp [hsome, hprices]
        refine ⟨⟨by simp [hst], fun h => by simp [hcost'] at h⟩, by simp [hst], fun _ => ?_⟩
        refine ⟨hp, hc, ?_, hnone hcost'⟩
        by_contra hboth'
        rw [not_or, ← ne_eq, ← ne_eq, Option.ne_none_iff_isSome, Option.ne_none_iff_isSome] at hboth'
        exact hprices (Bool.and_eq_true_iff.2 hboth')
    · have hc : ¬ row.completionTokens.isSome := fun hc => hp (hboth.2 hc)
      have hst : row.status = .okNoUsage := by simp [hstatus, usageStatus, hp]
      have hcost' : row.costNanoUsd.isSome = false := by simp [hsome, hp]
      refine ⟨⟨by simp [hst], fun h => absurd h.1 hp⟩, fun _ => ?_, by simp [hst]⟩
      exact ⟨by simpa using hp, by simpa using hc, hnone hcost'⟩

/-! ## The rows of the two paths -/

/-- A passthrough row always keeps the law: the tap measures both counts or neither. -/
lemma passthroughRow_law (b : Booking) (model upstreamId : String) (raw : RawResponse) :
    StatusLaw (passthroughRow b model upstreamId raw) := by
  refine (statusLaw_usageStatus_iff rfl rfl).2 ?_
  obtain ⟨hprompt, hcompletion⟩ := passthroughRow_tokens b model upstreamId raw
  rw [hprompt, hcompletion, Option.isSome_map, Option.isSome_map]

/-- An arm that did not answer has nothing measured, and its row keeps the law. -/
lemma bookMoaArm_law_of_unanswered (b : Booking) (armKind : UsageArm) {arm : Moa.ArmOutcome}
    {model upstreamId : String} {v : Moa.Verdict} (harm : Moa.Records arm model upstreamId v)
    (hv : v.response = none) : StatusLaw (bookMoaArm b armKind arm) := by
  obtain ⟨latencyMs, rfl⟩ := harm
  have husage : v.usage = none := by simp [Moa.Verdict.usage, hv]
  have hcost : ∀ ct pp cp, computeCost none ct pp cp = none := fun _ _ _ => rfl
  cases v with
  | answered resp => cases hv
  | unresolved | timedOut | failed =>
      constructor <;>
        simp [bookMoaArm, Moa.outcomeOf, Moa.Verdict.status, husage, Moa.extractTokens, hcost]

/-- The row of an arm that answered keeps the law just when both counts are measured or neither
is. -/
lemma bookMoaArm_law_iff (b : Booking) (armKind : UsageArm) {arm : Moa.ArmOutcome}
    {model upstreamId : String} {response : ChatResponse}
    (harm : Moa.Records arm model upstreamId (.answered response)) :
    StatusLaw (bookMoaArm b armKind arm) ↔
      ((bookMoaArm b armKind arm).promptTokens.isSome ↔
        (bookMoaArm b armKind arm).completionTokens.isSome) := by
  obtain ⟨latencyMs, rfl⟩ := harm
  exact statusLaw_usageStatus_iff rfl rfl

/-! ## The bodies -/

/-- Where the status of a row tells which fields are measured: on the passthrough path always, in
an arm when both counts of the body's usage are measured or neither is. -/
def Paired : ProviderType → UsagePath → Option Value → Prop
  | _, .passthrough, _ => True
  | .openaiCompat, .moa, usage =>
      (∃ n, Carries usage "prompt_tokens" n) ↔ ∃ n, Carries usage "completion_tokens" n
  | .anthropic, .moa, usage =>
      ∀ u, usage = some u → (Fits (u.get "input_tokens") ↔ Fits (u.get "output_tokens"))

/-- An unsigned count is measured in an arm when it fits an `i64`. -/
lemma isSome_asI64_unsignedOr0 {field : Option Value} :
    (Value.ofU64 (unsignedOr0 field)).asI64.isSome ↔ Fits field := by
  unfold Fits unsignedOr0
  rw [asI64_ofU64]
  cases h : field.bind Value.asU64 with
  | none => simp
  | some m =>
      by_cases hle : m ≤ Int64.maxValue.toUInt64
      · simp [hle]
      · simp [hle]

lemma paired_iff (adapter : ProviderType) (usage : Option Value) :
    ((bookedTokens adapter .moa usage).1.isSome ↔ (bookedTokens adapter .moa usage).2.isSome) ↔
      Paired adapter .moa usage := by
  cases adapter with
  | openaiCompat => simp only [bookedTokens, Paired, exists_carries_iff]
  | anthropic =>
      cases usage with
      | none => simp [bookedTokens, Paired]
      | some u => simp [bookedTokens, Paired, isSome_asI64_unsignedOr0]

/-- The status of a row tells which fields are measured exactly for the bodies where both counts
are measured or neither is; the row of a call that did not answer always keeps the law. -/
theorem status_law_iff (serde : SerdeJson) (repeats : Bytes → Bool) :
    (∀ adapter path body row, Booked serde repeats adapter path body row →
      (StatusLaw row ↔ Paired adapter path (bodyUsage serde body))) ∧
    ∀ (b : Booking) (armKind : UsageArm) (arm : Moa.ArmOutcome) (model upstreamId : String)
      (v : Moa.Verdict), Moa.Records arm model upstreamId v → v.response = none →
      StatusLaw (bookMoaArm b armKind arm) := by
  refine ⟨?_, fun b armKind arm model upstreamId v => bookMoaArm_law_of_unanswered b armKind⟩
  intro adapter path body row h
  have htokens := booked_tokens h
  cases h with
  | openaiPassthrough b model =>
      exact ⟨fun _ => trivial, fun _ => passthroughRow_law b model _ _⟩
  | anthropicPassthrough b model =>
      exact ⟨fun _ => trivial, fun _ => passthroughRow_law b model _ _⟩
  | openaiChat b model armKind hbody hcall harm =>
      rw [bookMoaArm_law_iff b armKind harm, ← paired_iff, ← htokens]
  | anthropicChat b model armKind hbody hcall harm =>
      rw [bookMoaArm_law_iff b armKind harm, ← paired_iff, ← htokens]

/-- On the passthrough path the same half of a usage is completed, and the row keeps the law. -/
theorem status_law_half :
    ∃ row, Booked halfSerde (fun _ => false) .openaiCompat .passthrough halfBody row ∧
      StatusLaw row := by
  obtain ⟨row, hbooked, -⟩ := booked_half_passthrough
  exact ⟨row, hbooked, ((status_law_iff halfSerde fun _ => false).1 _ _ _ _ hbooked).2 trivial⟩

/-! ### Half a usage in an arm -/

/-- A row with the prompt tokens and no completion tokens, and the status of a row without
usage. -/
theorem lone_token :
    ∃ row, Booked halfSerde (fun _ => false) .openaiCompat .moa halfBody row ∧
      row.status = .okNoUsage ∧ row.promptTokens = some 5 ∧ ¬ StatusLaw row := by
  obtain ⟨row, hbooked, hstatus, hprompt, -⟩ := booked_half
  refine ⟨row, hbooked, hstatus, hprompt, fun h => ?_⟩
  obtain ⟨hnone, -, -⟩ := h.unmeasured (.inl hstatus)
  rw [hprompt] at hnone
  cases hnone

end Accounting

end Moaray
