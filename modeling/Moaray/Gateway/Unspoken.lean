import Moaray.Gateway.Bill
import Moaray.Gateway.Confidential

/-!
# What is booked says nothing of what was said

The rows of a request and the metrics it leaves are about models, tokens, statuses and times.  Two
requests that say different things, and are answered with different things, are booked alike as
long as the gateway hears the same in their bodies and measures the same on their calls.

* `Heard`, `hears` — what the gateway takes note of in a body.
* `Reply.measured`, `ProviderRef.measures` — what it takes note of in an answer.
* `Moa.run_measured` — the arms of two runs whose calls are measured alike.
* `unspoken` — the rows and the metrics of two such requests.

Of a body the gateway takes note of its size against the limit, whether it is JSON, its model, its
stream flag, and whether it reads as a request.  Of an answer it takes note of its time, its status
and its tokens.  The texts go into the prompts and the responses; the statement is that they go
nowhere else.

**Design.**  What a run books is a function of the measured verdicts on its calls, and the proof
replaces each quantity of the run by its measured form, from the arms to the aggregator.  The two
runs ask the aggregator different things, so its calls are compared by what they are measured by
and not by what they say.
-/

namespace Moaray

open Framework Json

/-! ## What is measured -/

/-- A result without its value: an error is the status it is answered with. -/
def outcomeStatus {α : Type} : Except Error α → Except UInt16 Unit
  | .ok _ => .ok ()
  | .error e => .error e.envelope.status

namespace Moa

/-- The tokens of a result; an error is the status it is answered with. -/
def measuredResult : Except Error ChatResponse → Except UInt16 (Option Int64 × Option Int64)
  | .ok resp => .ok (extractTokens resp.usage)
  | .error e => .error e.envelope.status

/-- What a call is measured by: its time, and its tokens or its status. -/
def Reply.measured (r : Reply) : Option ℕ × Except UInt16 (Option Int64 × Option Int64) :=
  (r.delay, measuredResult r.result)

def tokensOf : Except UInt16 (Option Int64 × Option Int64) → Option Int64 × Option Int64
  | .ok tokens => tokens
  | .error _ => (none, none)

/-- What a verdict is booked by. -/
def Verdict.measured (v : Verdict) :
    ArmStatus × Except UInt16 (Option Int64 × Option Int64) :=
  (v.status, measuredResult v.outcome)

/-- What of an arm is booked: all but whether its usage object was there. -/
def ArmOutcome.booked (a : ArmOutcome) : ArmOutcome := { a with usagePresent := false }

/-- What of a run is booked. -/
def MoaRun.measured (moa : MoaRun) :
    List ArmOutcome × Option ArmOutcome × Except UInt16 Unit :=
  (moa.proposers.map ArmOutcome.booked, moa.aggregator.map ArmOutcome.booked,
    outcomeStatus moa.outcome)

/-! ## Verdicts -/

lemma extractTokens_usage (v : Verdict) : extractTokens v.usage = tokensOf v.measured.2 := by
  cases v <;> rfl

lemma booked_outcomeOf {v v' : Verdict} (h : v'.measured = v.measured) (model upstreamId : String)
    (latencyMs : UInt64) :
    (outcomeOf model upstreamId latencyMs v').booked =
      (outcomeOf model upstreamId latencyMs v).booked := by
  have hstatus : v'.status = v.status := congrArg Prod.fst h
  simp only [outcomeOf, ArmOutcome.booked, extractTokens_usage, h, hstatus]

lemma outcomeStatus_measured {v v' : Verdict} (h : v'.measured = v.measured)
    {f f' : ChatResponse → ChatResponse} :
    outcomeStatus (v'.outcome.map f') = outcomeStatus (v.outcome.map f) := by
  have hresult : measuredResult v'.outcome = measuredResult v.outcome := congrArg Prod.snd h
  generalize v'.outcome = r' at hresult
  generalize v.outcome = r at hresult
  cases r <;> cases r' <;>
    simp_all [measuredResult, outcomeStatus, Except.map]

section Calls

variable {π : Type} {U U' : Upstreams π} {c c' : ChatCall π}

lemma timeout_measured (h : (U'.chat c').measured = (U.chat c).measured) (budget : ℕ) :
    (timeout budget (U'.chat c')).1.map measuredResult =
        (timeout budget (U.chat c)).1.map measuredResult ∧
      (timeout budget (U'.chat c')).2 = (timeout budget (U.chat c)).2 := by
  obtain ⟨hdelay, hresult⟩ := Prod.mk.inj h
  unfold timeout
  rw [hdelay]
  cases (U.chat c).delay with
  | none => exact ⟨rfl, rfl⟩
  | some d =>
      by_cases hd : d ≤ budget
      · simp only [if_pos hd, Option.map_some, hresult, and_self]
      · simp only [if_neg hd, Option.map_none, and_self]

lemma verdict_measured (h : (U'.chat c').measured = (U.chat c).measured) (budget : ℕ) :
    (verdict U' budget (some c')).measured = (verdict U budget (some c)).measured := by
  have htimeout := (timeout_measured h budget).1
  simp only [verdict]
  generalize (timeout budget (U'.chat c')).1 = r' at htimeout
  generalize (timeout budget (U.chat c)).1 = r at htimeout
  rcases r with _ | (e | resp) <;> rcases r' with _ | (e' | resp') <;>
    simp_all [measuredResult, Verdict.measured, Verdict.status, Verdict.outcome]

lemma elapsed_measured (h : (U'.chat c').measured = (U.chat c).measured) (budget : ℕ) :
    elapsed U' budget (some c') = elapsed U budget (some c) :=
  (timeout_measured h budget).2

end Calls

/-! ## Runs -/

section Runs

variable {π : Type} {U U' : Upstreams π} {serde : SerdeJson} {o : Orchestrator π} {ctx : ReqCtx}
  {now : Instant} {recipe : Recipe} {request request' : ChatRequest}

/-- The calls made at one place of two runs are measured alike.  What the upstreams said in them may
differ. -/
def MeasuredAlike (U U' : Upstreams π) (calls calls' : List (ChatCall π)) : Prop :=
  ∀ c ∈ calls, ∀ c' ∈ calls', c'.site = c.site → (U'.chat c').measured = (U.chat c).measured

/-- A proposer's arm is called for both requests, or for neither. -/
lemma armCall_cases (request request' : ChatRequest) {row : String × ℕ}
    (hrow : row ∈ recipe.proposers.zipIdx) :
    (armCall o ctx request row = none ∧ armCall o ctx request' row = none) ∨
      ∃ c ∈ fanOutCalls o ctx recipe request, ∃ c' ∈ fanOutCalls o ctx recipe request',
        armCall o ctx request row = some c ∧ armCall o ctx request' row = some c' ∧
          c'.site = c.site := by
  cases hresolve : o.resolve row.1 with
  | none => exact .inl ⟨by rw [armCall, hresolve]; rfl, by rw [armCall, hresolve]; rfl⟩
  | some p =>
      have hcall : ∀ r : ChatRequest, armCall o ctx r row =
          some { site := .proposer row.2, provider := p, ctx, request := armRequest r row.1 } := by
        intro r
        rw [armCall, hresolve]
        rfl
      exact .inr ⟨_, List.mem_filterMap.2 ⟨row, hrow, hcall request⟩, _,
        List.mem_filterMap.2 ⟨row, hrow, hcall request'⟩, hcall request, hcall request', rfl⟩

/-- The arms of two fan-outs whose calls are measured alike. -/
lemma arm_measured (now : Instant)
    (h : MeasuredAlike U U' (fanOutCalls o ctx recipe request) (fanOutCalls o ctx recipe request'))
    {row : String × ℕ} (hrow : row ∈ recipe.proposers.zipIdx) :
    (armVerdict U' o ctx now recipe request' row).measured =
        (armVerdict U o ctx now recipe request row).measured ∧
      armElapsed U' o ctx now recipe request' row = armElapsed U o ctx now recipe request row := by
  unfold armVerdict armElapsed
  rcases armCall_cases request request' hrow with
    ⟨hnone, hnone'⟩ | ⟨c, hc, c', hc', hcall, hcall', hsite⟩
  · rw [hnone, hnone']
    exact ⟨rfl, rfl⟩
  · rw [hcall, hcall']
    exact ⟨verdict_measured (h c hc c' hc' hsite) _, elapsed_measured (h c hc c' hc' hsite) _⟩

section FanOut

variable (hid : U'.upstreamId = U.upstreamId)
  (h : MeasuredAlike U U' (fanOutCalls o ctx recipe request) (fanOutCalls o ctx recipe request'))

include hid h in
lemma proposerOutcomes_measured (now : Instant) :
    (proposerOutcomes U' o ctx now recipe request').map ArmOutcome.booked =
      (proposerOutcomes U o ctx now recipe request).map ArmOutcome.booked := by
  unfold proposerOutcomes
  rw [List.map_map, List.map_map]
  refine List.map_congr_left fun row hrow => ?_
  obtain ⟨hverdict, helapsed⟩ := arm_measured now h hrow
  simp only [Function.comp_apply, upstreamIdOf, hid, helapsed]
  exact booked_outcomeOf hverdict _ _ _

include h in
lemma fanOutEnd_measured :
    fanOutEnd U' o ctx now recipe request' = fanOutEnd U o ctx now recipe request := by
  have htimes : (fanOut U' o ctx now recipe request').map Prod.snd =
      (fanOut U o ctx now recipe request).map Prod.snd := by
    rw [fanOut, fanOut, List.map_map, List.map_map]
    refine List.map_congr_left fun row hrow => ?_
    simp only [Function.comp_apply, arm_eq]
    exact (arm_measured now h hrow).2
  unfold fanOutEnd fanOutTime
  rw [htimes]

include h in
lemma succeeded_measured :
    succeeded U' o ctx now recipe request' = succeeded U o ctx now recipe request := by
  unfold succeeded
  refine List.countP_congr fun row hrow => ?_
  have hstatus := congrArg Prod.fst (arm_measured now h hrow).1
  simp only [Verdict.measured] at hstatus
  rw [hstatus]

end FanOut

/-- The aggregator is called in both runs, or in neither. -/
lemma aggregatorCall_cases :
    (aggregatorCall U serde o ctx now recipe request = none ∧
        aggregatorCall U' serde o ctx now recipe request' = none) ∨
      ∃ c c', aggregatorCall U serde o ctx now recipe request = some c ∧
        aggregatorCall U' serde o ctx now recipe request' = some c' ∧
        c'.site = c.site ∧ c'.provider = c.provider := by
  unfold aggregatorCall
  cases o.resolve recipe.aggregator with
  | none => exact .inl ⟨rfl, rfl⟩
  | some p => exact .inr ⟨_, _, rfl, rfl, rfl, rfl⟩

/-- What follows two fan-outs that are measured alike. -/
lemma conclude_measured (hid : U'.upstreamId = U.upstreamId)
    (hfan : MeasuredAlike U U' (fanOutCalls o ctx recipe request)
      (fanOutCalls o ctx recipe request'))
    (hlast : recipe.quorum ≤ succeeded U o ctx now recipe request →
      MeasuredAlike U U' (aggregatorCall U serde o ctx now recipe request).toList
        (aggregatorCall U' serde o ctx now recipe request').toList) :
    (conclude U' serde o ctx (fanOutEnd U' o ctx now recipe request') recipe request'
        (proposerOutcomes U' o ctx now recipe request')
        (answers U' o ctx now recipe request')).1.measured =
      (conclude U serde o ctx (fanOutEnd U o ctx now recipe request) recipe request
        (proposerOutcomes U o ctx now recipe request)
        (answers U o ctx now recipe request)).1.measured := by
  have hproposers := proposerOutcomes_measured hid hfan now
  have hbudget : aggregatorBudget U' o ctx now recipe request' =
      aggregatorBudget U o ctx now recipe request := by
    unfold aggregatorBudget
    rw [fanOutEnd_measured hfan]
  rw [conclude_fanOut, conclude_fanOut, succeeded_measured hfan]
  by_cases hquorum : succeeded U o ctx now recipe request < recipe.quorum
  · rw [if_pos hquorum, if_pos hquorum]
    simp only [MoaRun.measured, hproposers]
  · rw [if_neg hquorum, if_neg hquorum]
    unfold aggregatorOutcome aggregatorVerdict
    rcases @aggregatorCall_cases π U U' serde o ctx now recipe request request' with
      ⟨hnone, hnone'⟩ | ⟨c, c', hcall, hcall', hsite, hprovider⟩
    · rw [hnone, hnone']
      simp only [MoaRun.measured, hproposers, verdict_none, Option.map_none]
      rfl
    · have hlike : (U'.chat c').measured = (U.chat c).measured := by
        refine hlast (by omega) c ?_ c' ?_ hsite
        · rw [hcall]
          exact List.mem_singleton_self c
        · rw [hcall']
          exact List.mem_singleton_self c'
      rw [hcall, hcall', hbudget]
      have hverdict := verdict_measured hlike (aggregatorBudget U o ctx now recipe request)
      simp only [MoaRun.measured, hproposers, Option.map_some, hid, hprovider,
        elapsed_measured hlike, booked_outcomeOf hverdict]
      rw [outcomeStatus_measured hverdict]

/-- **Two runs whose calls are measured alike are booked alike**, whatever is said in them. -/
theorem run_measured (hid : U'.upstreamId = U.upstreamId) (completion completion' : CompletionOrder)
    (name : String)
    (h : MeasuredAlike U U' (run U serde o ctx completion now name request).2
      (run U' serde o ctx completion' now name request').2) :
    (run U' serde o ctx completion' now name request').1.map MoaRun.measured =
      (run U serde o ctx completion now name request).1.map MoaRun.measured := by
  rw [run_eq, run_eq] at h ⊢
  cases hrecipe : o.recipe name with
  | none => rfl
  | some recipe =>
      simp only [hrecipe] at h ⊢
      have hfan : MeasuredAlike U U' (fanOutCalls o ctx recipe request)
          (fanOutCalls o ctx recipe request') := fun c hc c' hc' =>
        h c (List.mem_append_left _ hc) c' (List.mem_append_left _ hc')
      refine congrArg Except.ok (conclude_measured hid hfan fun hquorum c hc c' hc' => ?_)
      refine h c (List.mem_append_right _ ?_) c' (List.mem_append_right _ ?_)
      · rw [conclude_fanOut, if_neg (by omega)]
        exact hc
      · rw [conclude_fanOut, succeeded_measured hfan, if_neg (by omega)]
        exact hc'

end Runs

end Moa

/-! ## What is heard -/

/-- What the gateway takes note of in a body: why it is refused, or what it asks for.  What its
messages say is not part of it. -/
inductive Heard
  | tooLarge
  | noJson
  | noModel
  /-- The model it is for, whether the answer is to stream, and whether it is a typed request. -/
  | request (model : String) (stream typed : Bool)
  deriving DecidableEq

/-- Listen to a body.  It is refused for its size or its form, or it asks for a model, by stream or
not, in a request of the right type or not. -/
def hears (serde : SerdeJson) (reader : RequestReader) (maxBodyBytes : ℕ) (body : Option Bytes) :
    Heard :=
  match App.toBytes body maxBodyBytes with
  | none => .tooLarge
  | some raw =>
      match serde.parse raw with
      | .error _ => .noJson
      | .ok parsed =>
          match (parsed.get "model").bind Value.asStr with
          | none => .noModel
          | some model =>
              .request model (((parsed.get "stream").bind Value.asBool).getD false)
                (ChatRequest.fromSlice serde reader raw).isOk

/-- What a raw result is booked by. -/
def measuredRaw : Except Error RawResponse → Except UInt16 (UInt16 × Option (Int64 × Int64))
  | .ok raw => .ok (raw.status, raw.usage)
  | .error e => .error e.envelope.status

/-- What a raw call is measured by. -/
def ProviderRef.measures (serde : SerdeJson) (ctx : ReqCtx) (raw : Bytes) (stream : Bool)
    (p : ProviderRef) (reply : RawReply) :
    Option ℕ × Except UInt16 (UInt16 × Option (Int64 × Int64)) :=
  (reply.delay, measuredRaw (p.passthrough serde ctx raw stream reply.decision))

namespace App

section Handler

variable {ρ : Type} (w : Surroundings ρ)

/-- The raw call of a request, as it is measured. -/
def relayMeasured (req : Request) :
    Option (Option ℕ × Except UInt16 (UInt16 × Option (Int64 × Int64))) :=
  match preRoute w req with
  | .ok (.passthrough auth raw model stream provider _) =>
      let rctx := reqCtx w req.requestId auth.keyId model
      some (provider.measures w.serde rctx raw stream (w.raw provider rctx raw stream))
  | _ => none

/-- The structured calls of a request. -/
def chatCalls (req : Request) : List (Moa.ChatCall ProviderRef) :=
  match preRoute w req with
  | .ok (.moa callerKeyId recipe raw model runtime) =>
      match ChatRequest.fromSlice w.serde w.reader raw with
      | .ok request => (orchestrate w req.requestId callerKeyId recipe model request runtime).2
      | .error _ => []
  | _ => []

end Handler

/-! ## Gates -/

section Gates

variable {serde : SerdeJson} {reader : RequestReader} {rt : Runtime} {auth : AuthContext}

/-- The last gates: the allowlist, and the route of the model. -/
def routeModel (rt : Runtime) (auth : AuthContext) (raw : Bytes) (model : String) (stream : Bool) :
    Except Error Routed :=
  if !auth.allows model then .error (.modelNotAllowed model)
  else
    match route model fun m => rt.config.models.contains m with
    | .passthrough model =>
        match rt.providers[model]? with
        | some provider => .ok (.passthrough auth raw model stream provider rt)
        | none => .error (.modelNotFound model)
    | .moa recipe =>
        if stream then .error .moaStreamingUnsupported
        else .ok (.moa auth.keyId recipe raw model rt)
    | .unknown model => .error (.modelNotFound model)

lemma routeBody_hears (body : Option Bytes) (limit : ℕ) :
    match hears serde reader limit body with
    | .tooLarge => ∀ rt auth, Server.routeBody serde rt auth body limit = .error .payloadTooLarge
    | .noJson | .noModel => ∃ msg, ∀ rt auth,
        Server.routeBody serde rt auth body limit = .error (.badRequest msg)
    | .request model stream typed => ∃ raw, (ChatRequest.fromSlice serde reader raw).isOk = typed ∧
        ∀ rt auth, Server.routeBody serde rt auth body limit =
          routeModel rt auth raw model stream := by
  unfold hears Server.routeBody
  cases toBytes body limit with
  | none => exact fun _ _ => rfl
  | some raw =>
      cases hparse : serde.parse raw with
      | error e =>
          simp only [hparse, Except.mapError, bind, Except.bind]
          exact ⟨_, fun _ _ => rfl⟩
      | ok parsed =>
          cases hmodel : (parsed.get "model").bind Value.asStr with
          | none =>
              simp only [hparse, hmodel, Except.mapError, bind, Except.bind]
              exact ⟨_, fun _ _ => rfl⟩
          | some model =>
              simp only [hparse, hmodel, Except.mapError, bind, Except.bind]
              exact ⟨raw, rfl, fun _ _ => rfl⟩

/-- How two requests come through the gates whose bodies are heard alike: with one status, or on
one route. -/
inductive RoutedAlike (serde : SerdeJson) (reader : RequestReader) :
    Except Error Routed → Except Error Routed → Prop
  | refused (e e' : Error) (h : e'.envelope.status = e.envelope.status) :
      RoutedAlike serde reader (.error e) (.error e')
  | passthrough (auth : AuthContext) (raw raw' : Bytes) (model : String) (stream : Bool)
      (provider : ProviderRef) (rt : Runtime) :
      RoutedAlike serde reader (.ok (.passthrough auth raw model stream provider rt))
        (.ok (.passthrough auth raw' model stream provider rt))
  | moa (callerKeyId recipe : String) (raw raw' : Bytes) (model : String) (rt : Runtime)
      (h : (ChatRequest.fromSlice serde reader raw').isOk =
        (ChatRequest.fromSlice serde reader raw).isOk) :
      RoutedAlike serde reader (.ok (.moa callerKeyId recipe raw model rt))
        (.ok (.moa callerKeyId recipe raw' model rt))

lemma routeModel_alike {raw raw' : Bytes}
    (h : (ChatRequest.fromSlice serde reader raw').isOk =
      (ChatRequest.fromSlice serde reader raw).isOk) (model : String) (stream : Bool) :
    RoutedAlike serde reader (routeModel rt auth raw model stream)
      (routeModel rt auth raw' model stream) := by
  unfold routeModel
  split
  · exact .refused _ _ rfl
  · split
    · split
      · exact .passthrough ..
      · exact .refused _ _ rfl
    · split
      · exact .refused _ _ rfl
      · exact .moa _ _ _ _ _ _ h
    · exact .refused _ _ rfl

lemma routeBody_alike {limit : ℕ} {body body' : Option Bytes}
    (h : hears serde reader limit body' = hears serde reader limit body) :
    RoutedAlike serde reader (Server.routeBody serde rt auth body limit)
      (Server.routeBody serde rt auth body' limit) := by
  have hbody := @routeBody_hears serde reader body limit
  have hbody' := @routeBody_hears serde reader body' limit
  rw [h] at hbody'
  cases hheard : hears serde reader limit body with
  | tooLarge =>
      simp only [hheard] at hbody hbody'
      rw [hbody, hbody']
      exact .refused _ _ rfl
  | noJson | noModel =>
      simp only [hheard] at hbody hbody'
      obtain ⟨msg, hbody⟩ := hbody
      obtain ⟨msg', hbody'⟩ := hbody'
      rw [hbody, hbody']
      exact .refused _ _ rfl
  | request model stream typed =>
      simp only [hheard] at hbody hbody'
      obtain ⟨raw, htyped, hbody⟩ := hbody
      obtain ⟨raw', htyped', hbody'⟩ := hbody'
      rw [hbody, hbody']
      exact routeModel_alike (htyped'.trans htyped.symm) model stream

end Gates

/-! ## Rows and metrics -/

section Unspoken

variable {ρ : Type} {w w' : Surroundings ρ} {req req' : Request}

/-- Two surroundings that differ in what the upstreams do, and in nothing else that a request meets.
-/
structure SameGateway (w w' : Surroundings ρ) : Prop where
  serde : w'.serde = w.serde
  reader : w'.reader = w.reader
  runtime : w'.runtime = w.runtime
  stateful : w'.stateful = w.stateful
  limiter : w'.limiter = w.limiter
  atBody : w'.atBody = w.atBody
  atCall : w'.atCall = w.atCall
  now : w'.now = w.now
  unixMs : w'.unixMs = w.unixMs

/-- What is booked of the arms of a run depends on what of the run is measured. -/
lemma bookedArms_measured {moa moa' : Moa.MoaRun} (h : moa'.measured = moa.measured) :
    (bookedArms moa').map (Prod.map id Moa.ArmOutcome.booked) =
      (bookedArms moa).map (Prod.map id Moa.ArmOutcome.booked) := by
  obtain ⟨hproposers, haggregator⟩ := Prod.mk.inj h
  have haggregator := (Prod.mk.inj haggregator).1
  have hsplit : ∀ moa : Moa.MoaRun,
      (bookedArms moa).map (Prod.map id Moa.ArmOutcome.booked) =
        (moa.proposers.map Moa.ArmOutcome.booked).map (UsageArm.proposer, ·) ++
          (moa.aggregator.map Moa.ArmOutcome.booked).toList.map (UsageArm.aggregator, ·) := by
    intro moa
    unfold bookedArms
    rw [List.map_append, List.map_map, List.map_map, List.map_map]
    cases moa.aggregator <;> rfl
  rw [hsplit, hsplit, hproposers, haggregator]

/-- The rows of a run are those of what is booked of it. -/
lemma map_bookMoaArm (b : Booking) (arms : List (UsageArm × Moa.ArmOutcome)) :
    arms.map (fun arm => bookMoaArm b arm.1 arm.2) =
      (arms.map (Prod.map id Moa.ArmOutcome.booked)).map fun arm => bookMoaArm b arm.1 arm.2 := by
  rw [List.map_map]
  rfl

/-- The metrics of a run are those of what is booked of it. -/
lemma flatMap_armMetrics (b : Booking) (arms : List (UsageArm × Moa.ArmOutcome)) :
    arms.flatMap (fun arm => armMetrics arm.2 (bookMoaArm b arm.1 arm.2)) =
      (arms.map (Prod.map id Moa.ArmOutcome.booked)).flatMap fun arm =>
        armMetrics arm.2 (bookMoaArm b arm.1 arm.2) := by
  rw [List.flatMap_map]
  rfl

/-- The metrics and rows a run leaves behind, by what is measured of it. -/
lemma runMoa_leaves {requestId callerKeyId recipe model : String} {raw : Bytes} {rt : Runtime}
    {request : ChatRequest} {moa : Moa.MoaRun}
    (hread : ChatRequest.fromSlice w.serde w.reader raw = .ok request)
    (hrun : (orchestrate w requestId callerKeyId recipe model request rt).1 = .ok moa) :
    let b := booking w requestId callerKeyId rt
    (runMoa w requestId callerKeyId recipe raw model rt).rows =
        (bookedArms moa).map (fun arm => bookMoaArm b arm.1 arm.2) ∧
      (runMoa w requestId callerKeyId recipe raw model rt).metrics =
        (bookedArms moa).flatMap (fun arm => armMetrics arm.2 (bookMoaArm b arm.1 arm.2)) ++
          recordRequest .moa model
            (match outcomeStatus moa.outcome with
              | .ok _ => 200
              | .error status => status) := by
  unfold runMoa
  rw [hread]
  simp only [hrun]
  cases moa.outcome <;> simp [outcomeStatus, List.map_map, List.flatMap_map, Function.comp_def]

/-- The runs of two requests whose calls are measured alike. -/
lemma orchestrate_measured (hw : SameGateway w w') {requestId callerKeyId recipe model : String}
    {rt : Runtime} {request request' : ChatRequest}
    (h : Moa.MeasuredAlike w.upstreams w'.upstreams
      (orchestrate w requestId callerKeyId recipe model request rt).2
      (orchestrate w' requestId callerKeyId recipe model request' rt).2) :
    (orchestrate w' requestId callerKeyId recipe model request' rt).1.map Moa.MoaRun.measured =
      (orchestrate w requestId callerKeyId recipe model request rt).1.map Moa.MoaRun.measured := by
  have hrun : orchestrate w' requestId callerKeyId recipe model request' rt =
      Moa.run w'.upstreams w.serde rt.orchestrator (reqCtx w requestId callerKeyId model)
        w'.completion w.now recipe request' := by
    have hctx : reqCtx w' requestId callerKeyId model = reqCtx w requestId callerKeyId model := by
      rw [reqCtx, reqCtx, hw.now, hw.atCall]
    rw [orchestrate, hw.serde, hw.now, hctx]
  rw [hrun, orchestrate] at h ⊢
  have hid : w'.upstreams.upstreamId = w.upstreams.upstreamId := rfl
  exact Moa.run_measured hid w.completion w'.completion recipe h

/-- Two runs that are measured alike leave the same behind. -/
lemma runMoa_unspoken (hw : SameGateway w w') {requestId callerKeyId recipe model : String}
    {raw raw' : Bytes} {rt : Runtime}
    (htyped : (ChatRequest.fromSlice w.serde w.reader raw').isOk =
      (ChatRequest.fromSlice w.serde w.reader raw).isOk)
    (hcalls : ∀ request request', ChatRequest.fromSlice w.serde w.reader raw = .ok request →
      ChatRequest.fromSlice w.serde w.reader raw' = .ok request' →
      Moa.MeasuredAlike w.upstreams w'.upstreams
        (orchestrate w requestId callerKeyId recipe model request rt).2
        (orchestrate w' requestId callerKeyId recipe model request' rt).2) :
    (runMoa w' requestId callerKeyId recipe raw' model rt).rows =
        (runMoa w requestId callerKeyId recipe raw model rt).rows ∧
      (runMoa w' requestId callerKeyId recipe raw' model rt).metrics =
        (runMoa w requestId callerKeyId recipe raw model rt).metrics := by
  have hbook : booking w' requestId callerKeyId rt = booking w requestId callerKeyId rt := by
    rw [booking, booking, hw.unixMs]
  have hslice : ∀ bytes, ChatRequest.fromSlice w'.serde w'.reader bytes =
      ChatRequest.fromSlice w.serde w.reader bytes := by
    intro bytes
    rw [hw.serde, hw.reader]
  cases hread : ChatRequest.fromSlice w.serde w.reader raw with
  | error e =>
      rw [hread] at htyped
      cases hread' : ChatRequest.fromSlice w.serde w.reader raw' with
      | error e' =>
          unfold runMoa
          rw [hslice, hread', hread]
          exact ⟨rfl, rfl⟩
      | ok request' =>
          rw [hread'] at htyped
          cases htyped
  | ok request =>
      rw [hread] at htyped
      cases hread' : ChatRequest.fromSlice w.serde w.reader raw' with
      | error e' =>
          rw [hread'] at htyped
          cases htyped
      | ok request' =>
          have hmeasured := hcalls request request' hread hread'
          have hruns := orchestrate_measured hw hmeasured
          cases hrun : (orchestrate w requestId callerKeyId recipe model request rt).1 with
          | error e =>
              rw [hrun] at hruns
              cases hrun' : (orchestrate w' requestId callerKeyId recipe model request' rt).1 with
              | error e' =>
                  rw [hrun'] at hruns
                  obtain rfl : e' = e := Except.error.inj hruns
                  unfold runMoa
                  rw [hslice, hread', hread]
                  simp only [hrun, hrun', and_self]
              | ok moa' =>
                  rw [hrun'] at hruns
                  cases hruns
          | ok moa =>
              rw [hrun] at hruns
              cases hrun' : (orchestrate w' requestId callerKeyId recipe model request' rt).1 with
              | error e' =>
                  rw [hrun'] at hruns
                  cases hruns
              | ok moa' =>
                  rw [hrun'] at hruns
                  have hmoa : moa'.measured = moa.measured := Except.ok.inj hruns
                  have hstatus := (Prod.mk.inj (Prod.mk.inj hmoa).2).2
                  obtain ⟨hrows, hmetrics⟩ := runMoa_leaves hread hrun
                  obtain ⟨hrows', hmetrics'⟩ :=
                    runMoa_leaves ((hslice raw').trans hread') hrun'
                  rw [hrows, hrows', hmetrics, hmetrics', hbook, hstatus, map_bookMoaArm,
                    map_bookMoaArm _ (bookedArms moa), flatMap_armMetrics,
                    flatMap_armMetrics _ (bookedArms moa), bookedArms_measured hmoa]
                  exact ⟨rfl, rfl⟩

lemma rawTimeout_measured {result result' : Except Error RawResponse}
    (h : measuredRaw result' = measuredRaw result) (budget : ℕ) (delay : Option ℕ) :
    measuredRaw (rawTimeout budget delay result') =
      measuredRaw (rawTimeout budget delay result) := by
  unfold rawTimeout
  cases delay with
  | none => rfl
  | some d =>
      by_cases hd : d ≤ budget
      · simp only [if_pos hd, h]
      · simp only [if_neg hd]

/-- Two raw calls that are measured alike leave the same behind. -/
lemma passthrough_unspoken (hw : SameGateway w w') {requestId : String} {auth : AuthContext}
    {raw raw' : Bytes} {model : String} {stream : Bool} {provider : ProviderRef} {rt : Runtime}
    (h : provider.measures w'.serde (reqCtx w' requestId auth.keyId model) raw' stream
        (w'.raw provider (reqCtx w' requestId auth.keyId model) raw' stream) =
      provider.measures w.serde (reqCtx w requestId auth.keyId model) raw stream
        (w.raw provider (reqCtx w requestId auth.keyId model) raw stream)) :
    (passthrough w' requestId auth raw' model stream provider rt).rows =
        (passthrough w requestId auth raw model stream provider rt).rows ∧
      (passthrough w' requestId auth raw' model stream provider rt).metrics =
        (passthrough w requestId auth raw model stream provider rt).metrics := by
  have hbook : booking w' requestId auth.keyId rt = booking w requestId auth.keyId rt := by
    rw [booking, booking, hw.unixMs]
  obtain ⟨hdelay, hresult⟩ := Prod.mk.inj h
  have hcall : measuredRaw (rawCall w' requestId auth raw' model stream provider) =
      measuredRaw (rawCall w requestId auth raw model stream provider) := by
    unfold rawCall
    dsimp only
    rw [hdelay, hw.atCall]
    exact rawTimeout_measured hresult _ _
  unfold passthrough
  rw [hbook]
  generalize rawCall w' requestId auth raw' model stream provider = r' at hcall
  generalize rawCall w requestId auth raw model stream provider = r at hcall
  cases r with
  | error e =>
      cases r' with
      | error e' =>
          have hstatus : e'.envelope.status = e.envelope.status := Except.error.inj hcall
          simp only [hstatus, and_self]
      | ok resp' => cases hcall
  | ok resp =>
      cases r' with
      | error e' => cases hcall
      | ok resp' =>
          obtain ⟨hstatus, husage⟩ := Prod.mk.inj (Except.ok.inj hcall)
          simp only [hstatus, passthroughRow, husage]
          cases stream <;> exact ⟨rfl, rfl⟩

/-- Two requests of one caller that are heard alike come through the gates alike. -/
lemma preRoute_alike (hw : SameGateway w w') (hcaller : caller w' req' = caller w req)
    (hheard : hears w.serde w.reader w.atBody.maxBodyBytes req'.body =
      hears w.serde w.reader w.atBody.maxBodyBytes req.body) :
    RoutedAlike w.serde w.reader (preRoute w req) (preRoute w' req') := by
  rw [Server.preRoute_eq, Server.preRoute_eq, hcaller, hw.stateful, hw.limiter, hw.serde,
    hw.runtime, hw.atBody]
  cases caller w req with
  | error e => exact .refused _ _ rfl
  | ok auth =>
      simp only [bind, Except.bind]
      cases (w.stateful.checkKeyLimit auth.keyId w.limiter).2 with
      | error e => exact .refused _ _ rfl
      | ok u => exact routeBody_alike hheard

/-- **What is booked says nothing of what was said.**  Let two requests of one caller, with one id,
be heard alike and their upstream calls be measured alike: whatever else is in their bodies, and
whatever else the upstreams answer, the rows booked for them and the metrics they leave behind are
the same. -/
theorem unspoken (hw : SameGateway w w') (hid : req'.requestId = req.requestId)
    (hcaller : caller w' req' = caller w req)
    (hheard : hears w.serde w.reader w.atBody.maxBodyBytes req'.body =
      hears w.serde w.reader w.atBody.maxBodyBytes req.body)
    (hrelay : relayMeasured w' req' = relayMeasured w req)
    (hchat : Moa.MeasuredAlike w.upstreams w'.upstreams (chatCalls w req) (chatCalls w' req')) :
    (chatCompletions w' req').rows = (chatCompletions w req).rows ∧
      (chatCompletions w' req').metrics = (chatCompletions w req).metrics := by
  have halike := preRoute_alike hw hcaller hheard
  unfold relayMeasured at hrelay
  unfold chatCalls at hchat
  unfold chatCompletions
  generalize preRoute w req = routed at halike hrelay hchat
  generalize preRoute w' req' = routed' at halike hrelay hchat
  rw [hid] at hrelay hchat ⊢
  cases halike with
  | refused e e' hstatus =>
      simp only [hstatus, and_self]
  | passthrough auth raw raw' model stream provider rt =>
      exact passthrough_unspoken hw (Option.some.inj hrelay)
  | moa callerKeyId recipe raw raw' model rt htyped =>
      refine runMoa_unspoken hw htyped fun request request' hread hread' => ?_
      simp only [hw.serde, hw.reader, hread, hread'] at hchat
      exact hchat

/-- The gateway of the bill, with a model that says something else. -/
def talkativeWorld : Surroundings Unit :=
  { billedWorld with
    chat := fun c => chatReply (.ofTexts billedTexts) (fun _ => false) c (saying "a secret") }

/-- A request for the same recipe, which asks for it. -/
def talkativeRequest : Request :=
  { strayRequest with body := some (utf8 (billedText "tell me")) }

/-- Whatever the model says, the adapter measures three tokens and four. -/
lemma measured_saying {c : Moa.ChatCall ProviderRef} (hc : c.provider = seededProvider)
    {said : String}
    (hparse : (SerdeJson.ofTexts billedTexts).parse (utf8 (completionText said)) =
      .ok (.object (completionFields said))) :
    (chatReply (.ofTexts billedTexts) (fun _ => false) c (saying said)).measured =
      (some 0, .ok (some 3, some 4)) := by
  have hslice : ∃ r, ChatResponse.fromSlice (.ofTexts billedTexts) (fun _ => false)
      (utf8 (completionText said)) = some r ∧ Moa.extractTokens r.usage = (some 3, some 4) := by
    unfold ChatResponse.fromSlice
    rw [hparse]
    exact ⟨_, rfl, rfl⟩
  obtain ⟨r, hr, htokens⟩ := hslice
  have hchat : c.provider.chat (.ofTexts billedTexts) (fun _ => false) c.ctx c.request
      (saying said).decision = .ok r := by
    rw [hc]
    refine OpenAiProvider.chat_of_fromSlice rfl rfl ?_
    rwa [← List.append_nil (utf8 (completionText said))] at hr
  show (_, Moa.measuredResult _) = _
  rw [chatReply, hchat, Moa.measuredResult, htokens]
  rfl

theorem unspoken_talkative :
    (chatCompletions talkativeWorld talkativeRequest).rows =
      (chatCompletions billedWorld billedRequest).rows := by
  have hsame : SameGateway billedWorld talkativeWorld :=
    ⟨rfl, rfl, rfl, rfl, rfl, rfl, rfl, rfl, rfl⟩
  have hid : talkativeRequest.requestId = billedRequest.requestId := rfl
  have hcaller : caller billedWorld billedRequest =
      .ok { keyId := "k", allowModels := ["moa/r"] } := rfl
  have hcaller' : caller talkativeWorld talkativeRequest =
      .ok { keyId := "k", allowModels := ["moa/r"] } := rfl
  have hheard : hears billedWorld.serde billedWorld.reader billedWorld.atBody.maxBodyBytes
        talkativeRequest.body =
      hears billedWorld.serde billedWorld.reader billedWorld.atBody.maxBodyBytes
        billedRequest.body := by
    decide +kernel
  have hroute : preRoute talkativeWorld talkativeRequest =
      .ok (.moa "k" "r" (utf8 (billedText "tell me")) "moa/r" billedWorld.runtime) := by
    rw [Server.preRoute_eq]
    rfl
  have hrelay : relayMeasured talkativeWorld talkativeRequest =
      relayMeasured billedWorld billedRequest := by
    rw [relayMeasured, relayMeasured, hroute, preRoute_billedWorld]
  have hcalls : (chatCalls billedWorld billedRequest).all
      fun c => c.provider = seededProvider := by decide +kernel
  have hcalls' : (chatCalls talkativeWorld talkativeRequest).all
      fun c => c.provider = seededProvider := by decide +kernel
  have hchat : Moa.MeasuredAlike billedWorld.upstreams talkativeWorld.upstreams
      (chatCalls billedWorld billedRequest) (chatCalls talkativeWorld talkativeRequest) := by
    intro c hc c' hc' _
    have hprovider : c.provider = seededProvider := by simpa using List.all_eq_true.1 hcalls c hc
    have hprovider' : c'.provider = seededProvider := by
      simpa using List.all_eq_true.1 hcalls' c' hc'
    exact (measured_saying hprovider' (parse_billed (by simp [billedTexts]))).trans
      (measured_saying hprovider (parse_billed (by simp [billedTexts]))).symm
  exact (unspoken hsame hid (hcaller'.trans hcaller.symm) hheard hrelay hchat).1

end Unspoken

end App

end Moaray
