import Moaray.Gateway.Accounting

/-!
# Upstream counts in accounting

The token counts of a row come from the upstream and nobody checks them.  On their way they are
added as `u64`s, reread as `i64`s and summed as `i64`s, and `compute_cost` takes them to be
non-negative.

* `CountsSafe`, `InRange` — what the code relies on, and the bodies for which it holds.
* `countsSafe_openai_iff` and its siblings — one adapter and path at a time.
* `counts_safe_iff` — the condition at each of the four places.
* `hostile_counts` — an upstream that breaks all four.

The OpenAI adapter reads signed integers, so its counts may be negative and are booked so.  The
Anthropic adapter reads unsigned ones: none is negative, but one from `2 ^ 63` on is reread as
negative, and two large ones wrap when they are added to a total.  The sum over the arms of a run
adds signed integers and may wrap either way.

**Design.**  Each place has its own condition and the theorem lists them side by side, since a body
can be harmless at one place and not at another.
-/

namespace Moaray

open Framework Json

namespace Accounting

/-- The two counts of a usage of the Messages format, as the adapter reads them. -/
def inputTokens (u : Value) : UInt64 := unsignedOr0 (u.get "input_tokens")

def outputTokens (u : Value) : UInt64 := unsignedOr0 (u.get "output_tokens")

/-- What accounting relies on for a row booked for a body: no count is negative, none changes its
value on the way, and totals are exact. -/
structure CountsSafe (serde : SerdeJson) (adapter : ProviderType) (path : UsagePath) (body : Bytes)
    (row : UsageRecord) : Prop where
  /-- The total that the translated response reports is the sum of the two counts. -/
  total :
    adapter = .anthropic → ∀ anthropic model out, serde.parse body = .ok anthropic →
      AnthropicMap.anthropicToOpenai anthropic model = .ok out →
      ∀ u, anthropic.get "usage" = some u → ∃ usage total, out.get "usage" = some usage ∧
        usage.get "total_tokens" = some (.ofU64 total) ∧
        total.toNat = (inputTokens u).toNat + (outputTokens u).toNat
  /-- The tapped counts are the ones reported. -/
  converted :
    adapter = .anthropic → path = .passthrough → ∀ u, bodyUsage serde body = some u →
      row.promptTokens.map Int64.toInt = some ((inputTokens u).toNat : ℤ) ∧
        row.completionTokens.map Int64.toInt = some ((outputTokens u).toNat : ℤ)
  /-- No count handed to `compute_cost` is negative. -/
  nonneg : ∀ n, row.promptTokens = some n ∨ row.completionTokens = some n → 0 ≤ n.toInt

/-- The bodies whose counts are in range, for an adapter and a path. -/
def InRange : ProviderType → UsagePath → Option Value → Prop
  | .openaiCompat, _, usage =>
      ∀ field ∈ ["prompt_tokens", "completion_tokens"], ∀ n, Carries usage field n → 0 ≤ n.toInt
  | .anthropic, .passthrough, usage =>
      ∀ u, usage = some u → Fits (u.get "input_tokens") ∧ Fits (u.get "output_tokens")
  | .anthropic, .moa, usage =>
      ∀ u, usage = some u → (inputTokens u).toNat + (outputTokens u).toNat < 2 ^ 64

/-! ## One count -/

lemma fits_iff {field : Option Value} : Fits field ↔ (unsignedOr0 field).toNat < 2 ^ 63 := by
  unfold Fits unsignedOr0
  cases h : field.bind Value.asU64 with
  | none => simp
  | some m => simp [le_maxValue_iff]

/-- Rereading an unsigned count keeps its value just when it fits. -/
lemma toInt_unsignedOr0_iff {field : Option Value} :
    (unsignedOr0 field).toInt64.toInt = ((unsignedOr0 field).toNat : ℤ) ↔ Fits field := by
  rw [fits_iff, toInt_toInt64]
  split <;> omega

/-- The sum of two unsigned counts is exact just when it fits. -/
lemma toNat_add_iff {m n : UInt64} :
    (m + n).toNat = m.toNat + n.toNat ↔ m.toNat + n.toNat < 2 ^ 64 := by
  rw [UInt64.toNat_add]
  have hm := m.toNat_lt
  have hn := n.toNat_lt
  omega

/-- A printed unsigned count is never read back negative. -/
lemma nonneg_of_asI64_ofU64 {m : UInt64} {n : Int64} (h : (Value.ofU64 m).asI64 = some n) :
    0 ≤ n.toInt := by
  rw [asI64_ofU64] at h
  split at h
  · rename_i hle
    obtain rfl := Option.some.inj h
    rw [toInt_toInt64, if_pos (le_maxValue_iff.1 hle)]
    omega
  · cases h

/-! ## The counts of a body -/

/-- The total of a translated response is exact just when the sum of the counts fits a `u64`. -/
lemma total_iff {anthropic out u : Value} {model : String}
    (hout : AnthropicMap.anthropicToOpenai anthropic model = .ok out)
    (hu : anthropic.get "usage" = some u) :
    (∃ usage total, out.get "usage" = some usage ∧
      usage.get "total_tokens" = some (.ofU64 total) ∧
      total.toNat = (inputTokens u).toNat + (outputTokens u).toNat) ↔
      (inputTokens u).toNat + (outputTokens u).toNat < 2 ^ 64 := by
  obtain ⟨usage, husage, htotal⟩ := AnthropicMap.anthropicToOpenai_total hout
  rw [hu] at htotal
  have htotal' : usage.get "total_tokens" = some (.ofU64 (inputTokens u + outputTokens u)) := htotal
  rw [← toNat_add_iff]
  constructor
  · rintro ⟨usage', total, husage', hprinted, hexact⟩
    obtain rfl : usage' = usage := Option.some.inj (husage'.symm.trans husage)
    obtain rfl : inputTokens u + outputTokens u = total := by
      simpa [Value.ofU64] using htotal'.symm.trans hprinted
    exact hexact
  · intro hexact
    exact ⟨usage, _, husage, htotal', hexact⟩

/-- No integer of a usage is negative just when no count booked for it is. -/
lemma nonneg_openai_iff {usage : Option Value} {path : UsagePath} :
    (∀ n, (bookedTokens .openaiCompat path usage).1 = some n ∨
        (bookedTokens .openaiCompat path usage).2 = some n → 0 ≤ n.toInt) ↔
      InRange .openaiCompat path usage := by
  have hrange : InRange .openaiCompat path usage ↔
      (∀ n, carried usage "prompt_tokens" = some n → 0 ≤ n.toInt) ∧
        ∀ n, carried usage "completion_tokens" = some n → 0 ≤ n.toInt := by
    simp [InRange, carries_iff]
  have hzero : (0 : Int64).toInt = 0 := rfl
  rw [hrange]
  cases path with
  | moa =>
      show (∀ n, carried usage "prompt_tokens" = some n ∨
        carried usage "completion_tokens" = some n → 0 ≤ n.toInt) ↔ _
      exact ⟨fun h => ⟨fun n hn => h n (.inl hn), fun n hn => h n (.inr hn)⟩,
        fun h n hn => hn.elim (h.1 n) (h.2 n)⟩
  | passthrough =>
      -- The tap fills a single missing count with zero.
      simp only [bookedTokens]
      rcases carried usage "prompt_tokens" with _ | p <;>
        rcases carried usage "completion_tokens" with _ | c <;>
          simp [or_imp, forall_and, hzero]

lemma countsSafe_openai_iff {serde : SerdeJson} {repeats : Bytes → Bool} {path : UsagePath}
    {body : Bytes} {row : UsageRecord} (h : Booked serde repeats .openaiCompat path body row) :
    CountsSafe serde .openaiCompat path body row ↔
      InRange .openaiCompat path (bodyUsage serde body) := by
  have htokens := booked_tokens h
  rw [← nonneg_openai_iff, ← htokens]
  exact ⟨fun hsafe => hsafe.nonneg, fun hnonneg => ⟨nofun, nofun, hnonneg⟩⟩

lemma countsSafe_anthropic_passthrough_iff {serde : SerdeJson} {repeats : Bytes → Bool}
    {body : Bytes} {row : UsageRecord} (h : Booked serde repeats .anthropic .passthrough body row) :
    CountsSafe serde .anthropic .passthrough body row ↔
      InRange .anthropic .passthrough (bodyUsage serde body) := by
  obtain ⟨hprompt, hcompletion⟩ := Prod.mk.inj (booked_tokens h)
  have hconverted : (∀ u, bodyUsage serde body = some u →
      row.promptTokens.map Int64.toInt = some ((inputTokens u).toNat : ℤ) ∧
        row.completionTokens.map Int64.toInt = some ((outputTokens u).toNat : ℤ)) ↔
      InRange .anthropic .passthrough (bodyUsage serde body) := by
    refine forall_congr' fun u => imp_congr_right fun hu => ?_
    rw [hprompt, hcompletion, hu]
    simp only [Option.map_some, Option.some.injEq, inputTokens, outputTokens,
      toInt_unsignedOr0_iff]
  rw [← hconverted]
  refine ⟨fun hsafe => hsafe.converted rfl rfl, fun hconv => ⟨?_, fun _ _ => hconv, ?_⟩⟩
  · intro _ anthropic model out hparse hout u hu
    have hfits := hconverted.1 hconv u (by rw [bodyUsage_of_parse hparse, hu])
    rw [total_iff hout hu]
    have hin := fits_iff.1 hfits.1
    have hout' := fits_iff.1 hfits.2
    unfold inputTokens outputTokens
    omega
  · intro n hn
    cases husage : bodyUsage serde body with
    | none =>
        rw [hprompt, hcompletion, husage] at hn
        simp at hn
    | some u =>
        obtain ⟨hin, hout⟩ := hconv u husage
        rcases hn with hn | hn
        · rw [hn] at hin
          have hvalue : n.toInt = _ := Option.some.inj hin
          omega
        · rw [hn] at hout
          have hvalue : n.toInt = _ := Option.some.inj hout
          omega

lemma countsSafe_anthropic_moa_iff {serde : SerdeJson} {repeats : Bytes → Bool}
    {body : Bytes} {row : UsageRecord} (h : Booked serde repeats .anthropic .moa body row) :
    CountsSafe serde .anthropic .moa body row ↔
      InRange .anthropic .moa (bodyUsage serde body) := by
  obtain ⟨hprompt, hcompletion⟩ := Prod.mk.inj (booked_tokens h)
  have hnonneg : ∀ n, row.promptTokens = some n ∨ row.completionTokens = some n →
      0 ≤ n.toInt := by
    intro n hn
    rw [hprompt, hcompletion] at hn
    rcases hn with hn | hn
    · obtain ⟨u, -, hread⟩ := Option.bind_eq_some_iff.1 hn
      exact nonneg_of_asI64_ofU64 hread
    · obtain ⟨u, -, hread⟩ := Option.bind_eq_some_iff.1 hn
      exact nonneg_of_asI64_ofU64 hread
  constructor
  · intro hsafe u hu
    cases h with
    | anthropicChat b model armKind hbody hcall harm =>
        obtain ⟨bytes, anthropic, out, chat, hbytes, hparse, hout, -, -⟩ :=
          AnthropicProvider.chat_ok hcall
        obtain rfl := Except.ok.inj (hbytes.symm.trans hbody)
        rw [bodyUsage_of_parse hparse] at hu
        exact (total_iff hout hu).1 (hsafe.total rfl _ _ _ hparse hout u hu)
  · intro hrange
    refine ⟨fun _ anthropic model out hparse hout u hu => ?_, nofun, hnonneg⟩
    exact (total_iff hout hu).2 (hrange u (by rw [bodyUsage_of_parse hparse, hu]))

/-- The counts of upstream responses are handled exactly just when they are in range.  The
additions of a usage sum, over any usages, are exact when under no key a partial sum of the
integers overflows; and a booked row has a faithful total, faithful counts and no negative one
when the body's counts are in the range of its adapter and path. -/
theorem counts_safe_iff (serde : SerdeJson) (repeats : Bytes → Bool) :
    (∀ usages, Moa.AdditionsExact usages ↔ ∀ key, Moa.NoOverflow (Moa.intsAt key usages)) ∧
    ∀ adapter path body row, Booked serde repeats adapter path body row →
      (CountsSafe serde adapter path body row ↔ InRange adapter path (bodyUsage serde body)) := by
  refine ⟨Moa.additionsExact_iff, ?_⟩
  intro adapter path body row h
  cases adapter with
  | openaiCompat => exact countsSafe_openai_iff h
  | anthropic =>
      cases path with
      | passthrough => exact countsSafe_anthropic_passthrough_iff h
      | moa => exact countsSafe_anthropic_moa_iff h

/-- Half a usage is no danger: its one count is 5. -/
theorem counts_safe_half :
    ∃ row, Booked halfSerde (fun _ => false) .openaiCompat .moa halfBody row ∧
      CountsSafe halfSerde .openaiCompat .moa halfBody row := by
  obtain ⟨row, hbooked, -, hprompt, hcompletion⟩ := booked_half
  refine ⟨row, hbooked, ((counts_safe_iff halfSerde fun _ => false).2 _ _ _ _ hbooked).2 ?_⟩
  rw [← nonneg_openai_iff, ← booked_tokens hbooked, hprompt, hcompletion]
  rintro n (hn | hn)
  · obtain rfl := Option.some.inj hn
    decide
  · cases hn

/-! ### A hostile upstream -/

/-- A usage with a negative count for one adapter, and counts too large for the other. -/
def hostileUsage : Value :=
  .object
    [("completion_tokens", .ofU64 0), ("input_tokens", .ofU64 18446744073709551615),
      ("output_tokens", .ofU64 1), ("prompt_tokens", .ofI64 (-1))]

def hostileBody : Bytes :=
  utf8 ("\x7b\"usage\":\x7b\"completion_tokens\":0,\"input_tokens\":18446744073709551615," ++
    "\"output_tokens\":1,\"prompt_tokens\":-1\x7d\x7d")

def hostileSerde : SerdeJson where
  parse body :=
    if body = hostileBody then .ok (.object [("usage", hostileUsage)])
    else .error "expected value at line 1 column 1"
  print _ := "null"

def hostileReply : UpstreamResponse where
  status := 200
  contentType := none
  chunks := [.ok hostileBody]

def claudeProvider : AnthropicProvider where
  upstreamId := "claude"
  baseUrl := "https://upstream"
  apiKey := "k"
  defaultMaxTokens := 4096

lemma hostileReply_body : collectBytes hostileReply.chunks = .ok hostileBody := by
  simp [collectBytes, hostileReply, Except.map]

lemma hostileSerde_parse :
    hostileSerde.parse hostileBody = .ok (.object [("usage", hostileUsage)]) := by
  simp [hostileSerde]

/-- A row of minus one token, a total that has wrapped to zero, and a sum of two arms that has
wrapped below zero. -/
theorem hostile_counts :
    (∃ row, Booked hostileSerde (fun _ => false) .openaiCompat .passthrough hostileBody row ∧
      row.promptTokens = some (-1)) ∧
    (∃ row, Booked hostileSerde (fun _ => false) .anthropic .moa hostileBody row ∧
      ¬ CountsSafe hostileSerde .anthropic .moa hostileBody row) ∧
    ¬ Moa.AdditionsExact [.object [("prompt_tokens", .ofI64 Int64.maxValue)],
      .object [("prompt_tokens", .ofI64 1)]] := by
  refine ⟨?_, ?_, ?_⟩
  · have htap : parseUsageTokens hostileSerde hostileBody = some (-1, 0) := by
      unfold parseUsageTokens
      rw [hostileSerde_parse]
      rfl
    have hcall : (halfProvider.passthrough hostileSerde halfCtx [] (.ok hostileReply)).2 =
        .ok
          { status := 200, contentType := none, body := .once hostileBody,
            usage := some (-1, 0) } := by
      show collectResponse hostileSerde hostileReply = _
      unfold collectResponse
      rw [hostileReply_body, ← htap]
      rfl
    exact ⟨_, .openaiPassthrough halfBooking "gpt" hostileReply_body hcall, rfl⟩
  · obtain ⟨response, hcall⟩ : ∃ response,
        (claudeProvider.chat hostileSerde halfCtx halfRequest (.ok hostileReply)).result =
          .ok response := by
      have hread : AnthropicProvider.readReply hostileSerde (.ok hostileReply) =
          .ok (200, .object [("usage", hostileUsage)]) := by
        rfl
      unfold AnthropicProvider.chat
      simp only [hread]
      exact ⟨_, rfl⟩
    have harm : Moa.Records (Moa.outcomeOf "claude" "claude" 0 (.answered response)) "claude"
        claudeProvider.upstreamId (.answered response) := ⟨0, rfl⟩
    have hbooked : Booked hostileSerde (fun _ => false) .anthropic .moa hostileBody
        (bookMoaArm halfBooking .proposer
          (Moa.outcomeOf "claude" "claude" 0 (.answered response))) :=
      .anthropicChat halfBooking "claude" .proposer hostileReply_body hcall harm
    refine ⟨_, hbooked, fun hsafe => ?_⟩
    have hrange := (countsSafe_anthropic_moa_iff hbooked).1 hsafe hostileUsage (by
      rw [bodyUsage_of_parse hostileSerde_parse]
      rfl)
    have hin : (inputTokens hostileUsage).toNat = 18446744073709551615 := rfl
    have hout : (outputTokens hostileUsage).toNat = 1 := rfl
    omega
  · rw [Moa.additionsExact_iff]
    intro h
    have hints : Moa.intsAt "prompt_tokens" [.object [("prompt_tokens", .ofI64 Int64.maxValue)],
        .object [("prompt_tokens", .ofI64 1)]] = [2 ^ 63 - 1, 1] := by decide
    have hsum := (h "prompt_tokens" _ (List.prefix_refl _)).2
    rw [hints] at hsum
    norm_num at hsum

end Accounting

end Moaray
