import Moaray.Gateway.App

/-!
# Every request is counted once

The increments are spread over the dispatcher and the two paths.  Each way out records the status
it answers with, except one: the MoA path reads the body a second time, as a typed request, and
answers a body that is none before anything is recorded.

* `CountedOnce` — one request counted, with the class of its status, and one error if it is one.
* `counts_passthrough`, `counts_runMoa` — what the two paths record is what they answer.
* `counted_once_iff` — the requests that are.
* `stray_request_uncounted` — one that is not.

The status that is counted is read off the result before it is turned into a response, and the two
agree: an error is rendered with the status of its envelope, and an adapter relays successes only.

**Design.**  `Counts` says which path, model and status a list of metrics counts, with anything
else that is no count of a request around it (`counts_request`).  So the metrics of arms and rows,
which come before and after, are passed over once and for all.
-/

namespace Moaray

open Framework Json

/-! ## Statuses -/

lemma mapUpstreamStatus_ok {status : UInt16} (h : mapUpstreamStatus status = .ok ()) :
    200 ≤ status ∧ status < 300 := by
  unfold mapUpstreamStatus at h
  split at h
  · assumption
  · split at h
    · cases h
    · split at h <;> cases h

lemma InnerProvider.passthrough_status {serde : SerdeJson} {ctx : ReqCtx} {rawBody : Bytes}
    {stream : Bool} {reply : UpstreamReply} {p : InnerProvider} {raw : RawResponse}
    (h : p.passthrough serde ctx rawBody stream reply = .ok raw) :
    200 ≤ raw.status ∧ raw.status < 300 := by
  cases p with
  | openai p =>
      cases stream with
      | false =>
          obtain ⟨resp, -, h⟩ := bind_eq_ok.1 h
          obtain ⟨_, hstatus, h⟩ := bind_eq_ok.1 h
          obtain ⟨bytes, -, h⟩ := bind_eq_ok.1 h
          obtain rfl := Except.ok.inj h
          exact mapUpstreamStatus_ok hstatus
      | true =>
          obtain ⟨resp, -, h⟩ := bind_eq_ok.1 h
          obtain ⟨_, hstatus, h⟩ := bind_eq_ok.1 h
          obtain rfl := Except.ok.inj h
          exact mapUpstreamStatus_ok hstatus
  | anthropic p =>
      cases stream with
      | false =>
          change (p.passthrough serde ctx rawBody reply).result = .ok raw at h
          unfold AnthropicProvider.passthrough at h
          split at h
          · cases h
          · obtain ⟨⟨status, anthropic⟩, hread, h⟩ := bind_eq_ok.1 h
            obtain ⟨openai, -, h⟩ := bind_eq_ok.1 h
            obtain rfl := Except.ok.inj h
            obtain ⟨resp, -, hread⟩ := bind_eq_ok.1 hread
            obtain ⟨_, hstatus, hread⟩ := bind_eq_ok.1 hread
            obtain ⟨bytes, -, hread⟩ := bind_eq_ok.1 hread
            obtain ⟨value, -, hread⟩ := bind_eq_ok.1 hread
            obtain ⟨rfl, -⟩ := Prod.mk.inj (Except.ok.inj hread)
            exact mapUpstreamStatus_ok hstatus
      | true =>
          change (p.passthroughStream serde ctx rawBody reply).result = .ok raw at h
          unfold AnthropicProvider.passthroughStream at h
          split at h
          · cases h
          · obtain ⟨resp, -, h⟩ := bind_eq_ok.1 h
            obtain ⟨_, hstatus, h⟩ := bind_eq_ok.1 h
            obtain rfl := Except.ok.inj h
            exact mapUpstreamStatus_ok hstatus

lemma status_errorResponse (e : Error) : (errorResponse e).status = e.envelope.status := by
  obtain ⟨hle, hlt⟩ := e.envelope_status
  have hvalid : statusCode e.envelope.status = some e.envelope.status := by
    unfold statusCode
    exact if_pos ⟨by grind, by grind⟩
  simp only [errorResponse, jsonResponse, hvalid, Option.getD_some]

lemma status_intoResponse {raw : RawResponse} (h : 200 ≤ raw.status ∧ raw.status < 300)
    (stream : Bool) : (intoResponse raw stream).status = raw.status := by
  have hvalid : statusCode raw.status = some raw.status := by
    unfold statusCode
    exact if_pos ⟨by grind, by grind⟩
  simp only [intoResponse, hvalid, Option.getD_some]

namespace App

variable {ρ : Type} {w : Surroundings ρ}

lemma rawCall_status {requestId : String} {auth : AuthContext} {raw : Bytes} {model : String}
    {stream : Bool} {provider : ProviderRef} {rawResp : RawResponse}
    (h : rawCall w requestId auth raw model stream provider = .ok rawResp) :
    200 ≤ rawResp.status ∧ rawResp.status < 300 := by
  unfold rawCall rawTimeout at h
  simp only [] at h
  split at h
  · split at h
    · unfold ProviderRef.passthrough at h
      split at h
      · cases h
      · exact InnerProvider.passthrough_status h
    · cases h
  · cases h

/-! ## What is counted -/

def isRequest : Metric → Bool
  | .requestsTotal .. => true
  | _ => false

def isError : Metric → Bool
  | .errorsTotal .. => true
  | _ => false

/-- One request of a status is counted, under a path and a model. -/
def Counts (metrics : List Metric) (path : RequestPath) (model : String) (status : UInt16) :
    Prop :=
  metrics.filter isRequest = [.requestsTotal path.asStr model (statusClass status)] ∧
    metrics.filter isError =
      if 400 ≤ status then [.errorsTotal path.asStr model (statusClass status)] else []

/-- A request is counted once, with the class of the status it is answered with, and it is one
error just when that status is. -/
def CountedOnce (served : Served Response) : Prop :=
  ∃ path model, Counts served.metrics path model served.result.status

lemma counts_rejection (status : UInt16) :
    Counts (recordRejection status) .preRouting "_pre_routing" status := by
  unfold Counts recordRejection countRequest
  split <;> exact ⟨rfl, rfl⟩

/-- Metrics that count no request may surround those that do. -/
lemma counts_request (before after : List Metric)
    (hbefore : ∀ m ∈ before, isRequest m = false ∧ isError m = false)
    (hafter : ∀ m ∈ after, isRequest m = false ∧ isError m = false) (path : RequestPath)
    (model : String) (status : UInt16) :
    Counts (before ++ recordRequest path model status ++ after) path model status := by
  have hquiet : ∀ {p : Metric → Bool} {ms : List Metric}, (∀ m ∈ ms, p m = false) →
      ms.filter p = [] := fun h => List.filter_eq_nil_iff.2 fun m hm => by simp [h m hm]
  unfold Counts
  rw [List.filter_append, List.filter_append, List.filter_append, List.filter_append,
    hquiet fun m hm => (hbefore m hm).1, hquiet fun m hm => (hbefore m hm).2,
    hquiet fun m hm => (hafter m hm).1, hquiet fun m hm => (hafter m hm).2]
  unfold recordRequest countRequest
  split <;> exact ⟨rfl, rfl⟩

lemma quiet_countUnpriced (row : UsageRecord) :
    ∀ m ∈ countUnpriced row, isRequest m = false ∧ isError m = false := by
  unfold countUnpriced
  split <;> simp [isRequest, isError]

lemma quiet_armMetrics (arms : List (Moa.ArmOutcome × UsageRecord)) :
    ∀ m ∈ arms.flatMap fun arm => armMetrics arm.1 arm.2,
      isRequest m = false ∧ isError m = false := by
  intro m hm
  obtain ⟨arm, -, hm⟩ := List.mem_flatMap.1 hm
  rcases List.mem_append.1 hm with hm | hm
  · rcases List.mem_pair.1 hm with rfl | rfl <;> exact ⟨rfl, rfl⟩
  · exact quiet_countUnpriced arm.2 m hm

/-! ## The paths -/

/-- The passthrough path counts what it answers, under its model. -/
lemma counts_passthrough (requestId : String) (auth : AuthContext) (raw : Bytes) (model : String)
    (stream : Bool) (provider : ProviderRef) (runtime : Runtime) :
    let served := passthrough w requestId auth raw model stream provider runtime
    Counts served.metrics .passthrough model (respond served.result).status := by
  unfold passthrough
  split
  · rename_i rawResp hcall
    have hstatus := status_intoResponse (rawCall_status hcall) stream
    split
    · have hcounts := counts_request [] [.usageUnaccountedStreamTotal]
        (by simp) (by simp [isRequest, isError]) .passthrough model rawResp.status
      simpa only [respond, hstatus, List.nil_append] using hcounts
    · have hcounts := counts_request [] _ (by simp)
        (quiet_countUnpriced (passthroughRow (booking w requestId auth.keyId runtime) model
          provider.upstreamId rawResp)) .passthrough model rawResp.status
      simpa only [respond, hstatus, List.nil_append] using hcounts
  · rename_i e hcall
    have hcounts := counts_request [] [] (by simp) (by simp) .passthrough
      model e.envelope.status
    simpa only [respond, status_errorResponse, List.append_nil, List.nil_append] using hcounts

/-- The MoA path counts what it answers, for a body that is a request. -/
lemma counts_runMoa {requestId callerKeyId recipe : String} {raw : Bytes} {model : String}
    {runtime : Runtime} {request : ChatRequest}
    (hrequest : ChatRequest.fromSlice w.serde w.reader raw = .ok request) :
    let served := runMoa w requestId callerKeyId recipe raw model runtime
    Counts served.metrics .moa model (respond served.result).status := by
  unfold runMoa
  rw [hrequest]
  simp only []
  split
  · rename_i e _
    have hcounts := counts_request [] [] (by simp) (by simp) .moa model
      e.envelope.status
    simpa only [respond, status_errorResponse, List.append_nil, List.nil_append] using hcounts
  · rename_i run _
    have hquiet := quiet_armMetrics ((bookedArms run).map fun arm =>
      (arm.2, bookMoaArm (booking w requestId callerKeyId runtime) arm.1 arm.2))
    split
    · have hcounts := counts_request _ [] hquiet (by simp) .moa model 200
      simpa only [respond, renderMoa, renderUnder, jsonResponse, List.append_nil] using hcounts
    · rename_i e _
      have hcounts := counts_request _ [] hquiet (by simp) .moa model e.envelope.status
      simpa only [respond, status_errorResponse, List.append_nil] using hcounts

/-- A request is counted once unless it is routed to a recipe with a body that reads as JSON but
not as a request. -/
theorem counted_once_iff (w : Surroundings ρ) (req : Request) :
    CountedOnce (chatCompletions w req) ↔
      ∀ callerKeyId recipe raw model runtime,
        preRoute w req = .ok (.moa callerKeyId recipe raw model runtime) →
          ∃ request, ChatRequest.fromSlice w.serde w.reader raw = .ok request := by
  unfold chatCompletions
  cases hroute : preRoute w req with
  | error e =>
      have hcounts := counts_rejection e.envelope.status
      constructor
      · intro _ _ _ _ _ _ h
        cases h
      · refine fun _ => ⟨.preRouting, "_pre_routing", ?_⟩
        simpa only [respond, status_errorResponse] using hcounts
  | ok routed =>
      cases routed with
      | passthrough auth raw model stream provider runtime =>
          constructor
          · intro _ _ _ _ _ _ h
            cases h
          · exact fun _ => ⟨.passthrough, model,
              counts_passthrough req.requestId auth raw model stream provider runtime⟩
      | moa callerKeyId recipe raw model runtime =>
          constructor
          · rintro ⟨path, label, hcount, -⟩ _ _ _ _ _ hsame
            -- Nothing was recorded before the body was read again.
            cases hsame
            cases hread : ChatRequest.fromSlice w.serde w.reader raw with
            | ok request => exact ⟨request, rfl⟩
            | error e => simp [execute, runMoa, hread] at hcount
          · intro hread
            obtain ⟨request, hrequest⟩ := hread _ _ _ _ _ rfl
            exact ⟨.moa, model, counts_runMoa hrequest⟩

/-! ### A request that is counted nowhere -/

def straySettings : ServerConfig where
  bind := "0.0.0.0"
  port := 8080
  requestTimeoutMs := 120000
  maxBodyBytes := 1048576
  shutdownGraceMs := 15000
  defaultMaxTokens := 4096
  moaExposeMetadata := false
  breaker := { failureThreshold := 5, openMs := 30000, halfOpenSuccesses := 1 }
  retry := { enabled := false, maxRetries := 2, backoffMs := 100 }
  usageStore := none

/-- A recipe is asked for, with messages that are no list. -/
def strayBody : Bytes := utf8 "\x7b\"model\":\"moa/r\",\"messages\":\"hi\"\x7d"

/-- A gateway with one key, at the moment that request comes in. -/
def strayWorld : Surroundings Unit where
  serde :=
    { parse := fun body =>
        if body = strayBody then
          .ok (.object [("messages", .string "hi"), ("model", .string "moa/r")])
        else .error "expected value at line 1 column 1"
      print := fun _ => "null" }
  reader :=
    { repeats := fun _ => false
      reason := fun _ => "invalid type: string \"hi\", expected a sequence at line 1 column 31" }
  runtime :=
    { config :=
        { server := straySettings
          keys := [{ id := "k", secret := .plain "s", allowModels := ["moa/r"], rateLimit := none }]
          models := ∅
          recipes := ∅ }
      providers := ∅
      orchestrator := { resolver := ∅, recipes := ∅ } }
  stateful := StatefulState.default
  limiter := { allowed := true, cell := 0 }
  atBody := straySettings
  atCall := straySettings
  atReply := straySettings
  now := 0
  unixMs := 0
  raw _ _ _ _ := { delay := none, decision := .refused .internal }
  chat _ := { delay := none, result := .error .internal }
  completion := { order := id, perm := fun _ => .refl _ }

def strayRequest : Request where
  requestId := "r"
  authorization := some "Bearer s"
  body := some strayBody

/-- A request whose messages are no list is answered with a 400 that no counter shows. -/
theorem stray_request_uncounted :
    (chatCompletions strayWorld strayRequest).result.status = 400 ∧
      (chatCompletions strayWorld strayRequest).metrics = [] ∧
      ¬ CountedOnce (chatCompletions strayWorld strayRequest) := by
  have hnone : (chatCompletions strayWorld strayRequest).metrics = [] := rfl
  refine ⟨rfl, hnone, ?_⟩
  rintro ⟨path, model, hcount, -⟩
  rw [hnone] at hcount
  cases hcount

end App

end Moaray
