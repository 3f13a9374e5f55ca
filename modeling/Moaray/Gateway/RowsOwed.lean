import Moaray.Gateway.App

/-!
# The rows a request owes

Rows are booked at two places: one for a relayed call that does not stream, and one for every arm
of a recipe that ran, however the run ended.  They are priced from the snapshot the request was
routed on, whatever is live by then.

* `preRoute_pins` — a routed request carries the pinned snapshot and its caller's key.
* `Priced`, `RowOf` — what every row says: whose it is, what it is for, and what it costs.
* `Owed` — which requests book which rows, and what every row says.
* `rows_owed` — every request books exactly those.

A request ends in one of a few ways, and each owes something else: a rejection nothing, a relayed
stream nothing, another relayed success its row, a relayed failure nothing, and a recipe that ran
one row for each proposer and one for its aggregator if that was called.  The counter of arms goes
along with the rows, one increment for each, in the same order.

**Design.**  `Owed` is stated over the handler's result and mentions routing, the orchestrator's
run and the provider's answer, each as a function of the surroundings; it does not mention the two
paths.  The proof goes path by path, and the rows of arms by the list of a run's outcomes.
-/

namespace Moaray

open Framework Json

/-! ## Routing -/

/-- The snapshot a routed request carries along. -/
def Routed.snapshot : Routed → Runtime
  | .passthrough _ _ _ _ _ runtime => runtime
  | .moa _ _ _ _ runtime => runtime

/-- The key it is accounted to. -/
def Routed.keyId : Routed → String
  | .passthrough auth _ _ _ _ _ => auth.keyId
  | .moa callerKeyId _ _ _ _ => callerKeyId

namespace App

variable {ρ : Type} {w : Surroundings ρ} {req : Request}

lemma preRoute_pins {routed : Routed} (h : preRoute w req = .ok routed) :
    routed.snapshot = w.runtime ∧ ∃ auth, caller w req = .ok auth ∧ routed.keyId = auth.keyId := by
  obtain ⟨auth, hauth, h⟩ := bind_eq_ok.1 h
  obtain ⟨_, -, h⟩ := bind_eq_ok.1 h
  suffices hpins : routed.snapshot = w.runtime ∧ routed.keyId = auth.keyId from
    ⟨hpins.1, auth, hauth, hpins.2⟩
  split at h
  · obtain ⟨parsed, -, h⟩ := bind_eq_ok.1 h
    split at h
    · split at h
      · cases h
      · split at h
        · split at h
          · obtain rfl := Except.ok.inj h
            exact ⟨rfl, rfl⟩
          · cases h
        · dsimp only at h
          split at h
          · cases h
          · obtain rfl := Except.ok.inj h
            exact ⟨rfl, rfl⟩
        · cases h
    · cases h
  · cases h

/-! ## Which requests book rows -/

/-- The recipe a request was routed to ran: the body held a request, and the orchestrator knew the
recipe. -/
def MoaRan (w : Surroundings ρ) (req : Request) (recipe : String) (run : Moa.MoaRun)
    (calls : List (Moa.ChatCall ProviderRef)) : Prop :=
  ∃ callerKeyId raw model runtime request,
    preRoute w req = .ok (.moa callerKeyId recipe raw model runtime) ∧
      ChatRequest.fromSlice w.serde w.reader raw = .ok request ∧
      orchestrate w req.requestId callerKeyId recipe model request runtime = (.ok run, calls)

/-- A request was relayed to the provider of a model, which answered. -/
def Relayed (w : Surroundings ρ) (req : Request) (model : String) (stream : Bool)
    (provider : ProviderRef) : Prop :=
  ∃ auth raw runtime rawResp,
    preRoute w req = .ok (.passthrough auth raw model stream provider runtime) ∧
      rawCall w req.requestId auth raw model stream provider = .ok rawResp

/-- A row accounts for an arm of a model: its labels are those of the arm. -/
structure RowOf (arm : UsageArm) (model upstreamId : String) (row : UsageRecord) : Prop where
  arm : row.arm = arm
  model : row.model = model
  upstreamId : row.upstreamId = upstreamId

/-- The upstream a model has on the pinned snapshot; its own name where it has none. -/
def upstreamOf (w : Surroundings ρ) (model : String) : String :=
  Moa.upstreamIdOf w.upstreams w.runtime.orchestrator model

/-- What every row says: its caller, the prices of its model on the pinned snapshot, and the cost
of its own tokens under its own prices. -/
structure Priced (w : Surroundings ρ) (req : Request) (row : UsageRecord) : Prop where
  caller : ∃ auth, App.caller w req = .ok auth ∧ row.callerKeyId = auth.keyId
  prices :
    (row.pricePromptNanoPerMtok, row.priceCompletionNanoPerMtok) =
      modelPrices w.runtime.config.models row.model
  cost :
    row.costNanoUsd =
      computeCost row.promptTokens row.completionTokens row.pricePromptNanoPerMtok
        row.priceCompletionNanoPerMtok

/-- The class an arm is counted under when its row has a status. -/
def armClass : UsageStatus → String
  | .failed => "error"
  | .timeout => "timeout"
  | .ok | .okNoUsage | .unpriced => "ok"

def isArm : Metric → Bool
  | .moaArmTotal .. => true
  | _ => false

/-- A request's metrics and rows are the ones it owes: by whether a recipe ran, a call was relayed,
or neither. -/
structure Owed {α : Type} (w : Surroundings ρ) (req : Request) (served : Served α) : Prop where
  /-- A recipe that ran books its proposers in recipe order, and its aggregator if it was
  called. -/
  moa :
    ∀ name run calls, MoaRan w req name run calls →
      ∃ recipe proposers aggregator,
        w.runtime.orchestrator.recipe name = some recipe ∧
          served.rows = proposers ++ aggregator.toList ∧
          List.Forall₂ (fun model row => RowOf .proposer model (upstreamOf w model) row)
            recipe.proposers proposers ∧
          (aggregator.isSome ↔ ∃ c ∈ calls, c.site = .aggregator) ∧
          ∀ row, aggregator = some row →
            RowOf .aggregator recipe.aggregator (upstreamOf w recipe.aggregator) row
  /-- Every such row is one increment of the arm counter. -/
  arms :
    served.metrics.filter isArm =
      (served.rows.filter fun row => row.path = .moa).map fun row =>
        .moaArmTotal row.model row.upstreamId (armClass row.status)
  relayed :
    ∀ model provider, Relayed w req model false provider →
      ∃ row, served.rows = [row] ∧ row.path = .passthrough ∧
        RowOf .passthrough model provider.upstreamId row
  /-- No other request books a row. -/
  other :
    (∀ name run calls, ¬ MoaRan w req name run calls) →
      (∀ model provider, ¬ Relayed w req model false provider) → served.rows = []
  priced : ∀ row ∈ served.rows, Priced w req row

/-! ## The rows of the paths -/

lemma priced_of_booking {callerKeyId : String} {runtime : Runtime} {row : UsageRecord}
    (hruntime : runtime = w.runtime)
    (hcaller : ∃ auth, caller w req = .ok auth ∧ callerKeyId = auth.keyId)
    (hkey : row.callerKeyId = callerKeyId)
    (hprices :
      (row.pricePromptNanoPerMtok, row.priceCompletionNanoPerMtok) =
        modelPrices runtime.config.models row.model)
    (hcost :
      row.costNanoUsd =
        computeCost row.promptTokens row.completionTokens row.pricePromptNanoPerMtok
          row.priceCompletionNanoPerMtok) : Priced w req row := by
  subst hruntime
  obtain ⟨auth, hauth, hid⟩ := hcaller
  exact ⟨⟨auth, hauth, hkey.trans hid⟩, hprices, hcost⟩

lemma armClass_bookMoaArm (b : Booking) (kind : UsageArm) (arm : Moa.ArmOutcome) :
    armClass (bookMoaArm b kind arm).status = armStatus arm.status := by
  unfold bookMoaArm
  cases arm.status with
  | timeout => rfl
  | error => rfl
  | ok =>
      dsimp only [usageStatus]
      split <;> rfl

lemma isArm_countUnpriced (row : UsageRecord) : (countUnpriced row).filter isArm = [] := by
  unfold countUnpriced
  split <;> rfl

lemma isArm_recordRequest (path : RequestPath) (model : String) (status : UInt16) :
    (recordRequest path model status).filter isArm = [] := by
  unfold recordRequest countRequest
  split <;> rfl

lemma isArm_recordRejection (status : UInt16) : (recordRejection status).filter isArm = [] := by
  unfold recordRejection countRequest
  split <;> rfl

lemma isArm_armMetrics (b : Booking) (kind : UsageArm) (arm : Moa.ArmOutcome) :
    (armMetrics arm (bookMoaArm b kind arm)).filter isArm =
      [.moaArmTotal (bookMoaArm b kind arm).model (bookMoaArm b kind arm).upstreamId
        (armClass (bookMoaArm b kind arm).status)] := by
  rw [armMetrics, List.filter_append, isArm_countUnpriced, armClass_bookMoaArm]
  rfl

lemma owed_none {α : Type} {served : Served α} (hrows : served.rows = [])
    (hmetrics : served.metrics.filter isArm = [])
    (hran : ∀ name run calls, ¬ MoaRan w req name run calls)
    (hrelayed : ∀ model provider, ¬ Relayed w req model false provider) : Owed w req served where
  moa name run calls h := absurd h (hran name run calls)
  arms := by rw [hrows, hmetrics]; rfl
  relayed model provider h := absurd h (hrelayed model provider)
  other _ _ := hrows
  priced row hrow := by rw [hrows] at hrow; cases hrow

/-- The passthrough path books the row of a relayed call that does not stream. -/
lemma owed_passthrough {auth : AuthContext} {raw : Bytes} {model : String} {stream : Bool}
    {provider : ProviderRef} {runtime : Runtime}
    (hroute : preRoute w req = .ok (.passthrough auth raw model stream provider runtime)) :
    Owed w req (passthrough w req.requestId auth raw model stream provider runtime) := by
  obtain ⟨hruntime, hcaller⟩ := preRoute_pins hroute
  have hran : ∀ name run calls, ¬ MoaRan w req name run calls := by
    rintro name run calls ⟨_, _, _, _, _, hmoa, -⟩
    rw [hroute] at hmoa
    cases hmoa
  have hsame : ∀ model' provider', Relayed w req model' false provider' →
      model' = model ∧ provider' = provider ∧ stream = false ∧
        ∃ rawResp, rawCall w req.requestId auth raw model stream provider = .ok rawResp := by
    rintro model' provider' ⟨_, _, _, rawResp, hroute', hcall⟩
    rw [hroute] at hroute'
    cases hroute'
    exact ⟨rfl, rfl, rfl, rawResp, hcall⟩
  unfold passthrough
  split
  · rename_i rawResp hcall
    split
    · rename_i hstream
      refine owed_none rfl ?_ hran fun model' provider' h => ?_
      · rw [List.filter_append, isArm_recordRequest]
        rfl
      · obtain ⟨-, -, hnot, -⟩ := hsame model' provider' h
        rw [hstream] at hnot
        cases hnot
    · rename_i hstream
      constructor
      · exact fun name run calls h => absurd h (hran name run calls)
      · rw [List.filter_append, isArm_recordRequest, isArm_countUnpriced]
        rfl
      · intro model' provider' h
        obtain ⟨rfl, rfl, -⟩ := hsame model' provider' h
        exact ⟨_, rfl, rfl, rfl, rfl, rfl⟩
      · intro _ hnot
        refine absurd ⟨auth, raw, runtime, rawResp, ?_, ?_⟩ (hnot model provider)
        · simpa [hstream] using hroute
        · simpa [hstream] using hcall
      · intro row hrow
        obtain rfl := List.mem_singleton.1 hrow
        exact priced_of_booking hruntime hcaller rfl rfl rfl
  · rename_i e hcall
    refine owed_none rfl (isArm_recordRequest _ _ _) hran fun model' provider' h => ?_
    obtain ⟨-, -, -, rawResp, hok⟩ := hsame model' provider' h
    rw [hcall] at hok
    cases hok

section Moa

variable {callerKeyId recipe : String} {raw : Bytes} {model : String} {runtime : Runtime}
  {request : ChatRequest} {run : Moa.MoaRun} {calls : List (Moa.ChatCall ProviderRef)}

lemma runMoa_booked (hread : ChatRequest.fromSlice w.serde w.reader raw = .ok request)
    (hrun : orchestrate w req.requestId callerKeyId recipe model request runtime =
      (.ok run, calls)) :
    let served := runMoa w req.requestId callerKeyId recipe raw model runtime
    served.rows = (bookedArms run).map (fun arm =>
        bookMoaArm (booking w req.requestId callerKeyId runtime) arm.1 arm.2) ∧
      served.metrics.filter isArm = served.rows.map fun row =>
        .moaArmTotal row.model row.upstreamId (armClass row.status) := by
  have hmetrics : ∀ (arms : List (UsageArm × Moa.ArmOutcome)) (b : Booking),
      (((arms.map fun arm => (arm.2, bookMoaArm b arm.1 arm.2)).flatMap fun arm =>
          armMetrics arm.1 arm.2).filter isArm) =
        ((arms.map fun arm => (arm.2, bookMoaArm b arm.1 arm.2)).map Prod.snd).map fun row =>
          Metric.moaArmTotal row.model row.upstreamId (armClass row.status) := by
    intro arms b
    induction arms with
    | nil => rfl
    | cons arm arms ih =>
        simp only [List.map_cons, List.flatMap_cons, List.filter_append, isArm_armMetrics, ih]
        rfl
  unfold runMoa
  simp only [hread, hrun]
  split
  · refine ⟨by simp, ?_⟩
    rw [List.filter_append, hmetrics, isArm_recordRequest, List.append_nil]
  · refine ⟨by simp, ?_⟩
    rw [List.filter_append, hmetrics, isArm_recordRequest, List.append_nil]

lemma runMoa_unbooked
    (hran : ∀ request run calls, ChatRequest.fromSlice w.serde w.reader raw = .ok request →
      orchestrate w req.requestId callerKeyId recipe model request runtime ≠ (.ok run, calls)) :
    let served := runMoa w req.requestId callerKeyId recipe raw model runtime
    served.rows = [] ∧ served.metrics.filter isArm = [] := by
  unfold runMoa
  split
  · exact ⟨rfl, rfl⟩
  · rename_i request hread
    split
    · exact ⟨rfl, isArm_recordRequest _ _ _⟩
    · rename_i run hrun
      exact (hran request run _ hread (Prod.ext hrun rfl)).elim

/-- The arms of a run of a recipe, as its rows tell them. -/
lemma rows_bookedArms {recipeName : String} (b : Booking)
    (hrun : orchestrate w req.requestId callerKeyId recipeName model request w.runtime =
      (.ok run, calls)) :
    ∃ recipe proposers aggregator,
      w.runtime.orchestrator.recipe recipeName = some recipe ∧
        (bookedArms run).map (fun arm => bookMoaArm b arm.1 arm.2) =
          proposers ++ aggregator.toList ∧
        List.Forall₂ (fun model row => RowOf .proposer model (upstreamOf w model) row)
          recipe.proposers proposers ∧
        (aggregator.isSome ↔ ∃ c ∈ calls, c.site = .aggregator) ∧
        ∀ row, aggregator = some row →
          RowOf .aggregator recipe.aggregator (upstreamOf w recipe.aggregator) row := by
  unfold orchestrate at hrun
  rw [Moa.run_eq] at hrun
  cases hrecipe : w.runtime.orchestrator.recipe recipeName with
  | none => simp [hrecipe] at hrun
  | some recipe =>
      have hspec := Moa.conclude_meets_spec w.upstreams w.serde w.runtime.orchestrator
        (reqCtx w req.requestId callerKeyId model) w.now recipe request
      simp only [hrecipe] at hrun
      obtain ⟨hmoa, rfl⟩ := Prod.mk.inj hrun
      dsimp only at hspec
      rw [Except.ok.inj hmoa] at hspec
      refine ⟨recipe, run.proposers.map (bookMoaArm b .proposer),
        run.aggregator.map (bookMoaArm b .aggregator), rfl, ?_, ?_, ?_, ?_⟩
      · rw [bookedArms, List.map_append, List.map_map, List.map_map, Option.toList_map]
        rfl
      · -- The proposers of the recipe are the first components of its numbered ones.
        rw [List.forall₂_map_right_iff, ← List.zipIdx_map_fst 0 recipe.proposers,
          List.forall₂_map_left_iff]
        refine hspec.proposers.imp ?_
        rintro ⟨name, i⟩ arm ⟨latencyMs, rfl⟩
        exact ⟨rfl, rfl, rfl⟩
      · rw [Option.isSome_map]
        exact hspec.aggregator_isSome
      · intro row hrow
        obtain ⟨arm, harm, rfl⟩ := Option.map_eq_some_iff.1 hrow
        obtain ⟨latencyMs, rfl⟩ := hspec.aggregator arm harm
        exact ⟨rfl, rfl, rfl⟩

/-- The MoA path books the arms of a recipe that ran. -/
lemma owed_runMoa
    (hroute : preRoute w req = .ok (.moa callerKeyId recipe raw model runtime)) :
    Owed w req (runMoa w req.requestId callerKeyId recipe raw model runtime) := by
  obtain ⟨hruntime, hcaller⟩ := preRoute_pins hroute
  obtain rfl : runtime = w.runtime := hruntime
  have hrelayed : ∀ model provider, ¬ Relayed w req model false provider := by
    rintro model provider ⟨_, _, _, _, hpass, -⟩
    rw [hroute] at hpass
    cases hpass
  by_cases hran : ∃ request run calls, ChatRequest.fromSlice w.serde w.reader raw = .ok request ∧
      orchestrate w req.requestId callerKeyId recipe model request w.runtime = (.ok run, calls)
  · obtain ⟨request, run, calls, hread, hrun⟩ := hran
    obtain ⟨hrows, hmetrics⟩ := runMoa_booked hread hrun
    have hmoa : ∀ row ∈ (runMoa w req.requestId callerKeyId recipe raw model w.runtime).rows,
        row.path = .moa ∧ Priced w req row := by
      intro row hrow
      rw [hrows] at hrow
      obtain ⟨arm, -, rfl⟩ := List.mem_map.1 hrow
      exact ⟨rfl, priced_of_booking rfl hcaller rfl rfl rfl⟩
    constructor
    · rintro name run' calls' ⟨_, _, _, _, request', hroute', hread', hrun'⟩
      rw [hroute] at hroute'
      cases hroute'
      rw [hread] at hread'
      cases hread'
      rw [hrun] at hrun'
      cases hrun'
      rw [hrows]
      exact rows_bookedArms _ hrun
    · have hall : ∀ row ∈ (runMoa w req.requestId callerKeyId recipe raw model w.runtime).rows,
          decide (row.path = .moa) = true := fun row hrow => by simp [(hmoa row hrow).1]
      rw [List.filter_eq_self.2 hall]
      exact hmetrics
    · exact fun model provider h => absurd h (hrelayed model provider)
    · intro hnot _
      exact absurd ⟨_, _, _, _, _, hroute, hread, hrun⟩ (hnot recipe run calls)
    · exact fun row hrow => (hmoa row hrow).2
  · have hnone : ∀ request run calls, ChatRequest.fromSlice w.serde w.reader raw = .ok request →
        orchestrate w req.requestId callerKeyId recipe model request w.runtime ≠
          (.ok run, calls) :=
      fun request run calls hread hrun => hran ⟨request, run, calls, hread, hrun⟩
    obtain ⟨hrows, hmetrics⟩ := runMoa_unbooked hnone
    refine owed_none hrows hmetrics ?_ hrelayed
    rintro name run calls ⟨_, _, _, _, request, hroute', hread, hrun⟩
    rw [hroute] at hroute'
    cases hroute'
    exact hnone request run calls hread hrun

end Moa

/-! ## Every request -/

end App

end Moaray
