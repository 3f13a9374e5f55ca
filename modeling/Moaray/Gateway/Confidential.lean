import Moaray.Gateway.Forwarding
import Moaray.Gateway.Isolation

/-!
# What a caller cannot learn

A key lists the models it may use.  Two snapshots that agree on what a caller may use, and on what
the recipes among it are made of, answer him alike: the response, the rows booked for it and even
the metrics say nothing about the other keys, models and recipes.

* `filter_keys_congr` — the keys of a table that pass a test.
* `Moa.run_congr` — a run reads its recipe and the providers of its members.
* `Unseen` — two snapshots that differ in what a caller may not use.
* `unseen_kept` — the two of them answer him alike.

The caller sees the listing, the routing of the names he posts to, and what the recipes he may use
do.  A name he may not use is refused before it is looked up, so whether it is configured does not
show.  A recipe reaches models the caller need not be allowed to use; these are among what the two
snapshots have to agree on.

**Design.**  The statement is one of noninterference: equal answers, rows and metrics for two
snapshots, and not a list of things that are not disclosed.  Everything else in the surroundings is
the same on both sides, the state of the buckets and of the upstreams too.
-/

namespace Moaray

open Framework Json

/-! ## Tables -/

namespace Framework

namespace Table

variable {V : Type*}

/-- The keys that pass a test come in the order of the keys. -/
lemma filter_keys_congr {m n : Table String V} {p : String → Bool}
    (h : ∀ k, p k → m.contains k = n.contains k) : m.keys.filter p = n.keys.filter p := by
  have hmem : ∀ k, k ∈ m.keys.filter p ↔ k ∈ n.keys.filter p := by
    intro k
    simp only [List.mem_filter, Std.ExtTreeMap.mem_keys, ← Std.ExtTreeMap.contains_iff_mem]
    exact and_congr_left fun hk => by rw [h k hk]
  have hordered : ∀ t : Table String V,
      (t.keys.filter p).Pairwise fun a b => compare a b = .lt := fun t =>
    Std.ExtTreeMap.ordered_keys.filter p
  have hperm : (m.keys.filter p).Perm (n.keys.filter p) :=
    (List.perm_ext_iff_of_nodup (Std.ExtTreeMap.nodup_keys.filter p)
      (Std.ExtTreeMap.nodup_keys.filter p)).2 hmem
  refine hperm.eq_of_pairwise (fun a b _ _ hab hba => ?_) (hordered m) (hordered n)
  have hswap : compare a b = (compare b a).swap := Std.OrientedCmp.eq_swap
  rw [hswap, hba] at hab
  cases hab

end Table

end Framework

/-! ## Runs -/

namespace Moa

variable {π : Type} {U : Upstreams π} {serde : SerdeJson} {o o' : Orchestrator π} {ctx : ReqCtx}
  {recipe : Recipe}

lemma conclude_congr (h : o'.resolve recipe.aggregator = o.resolve recipe.aggregator)
    (now : Instant) (request : ChatRequest) (proposers : List ArmOutcome)
    (successes : List ChatResponse) :
    conclude U serde o' ctx now recipe request proposers successes =
      conclude U serde o ctx now recipe request proposers successes := by
  unfold conclude
  rw [h]

lemma fanOut_congr (h : ∀ m ∈ recipe.proposers, o'.resolve m = o.resolve m) (now : Instant)
    (request : ChatRequest) :
    fanOut U o' ctx now recipe request = fanOut U o ctx now recipe request := by
  refine List.map_congr_left fun row hrow => ?_
  unfold arm
  rw [h row.1 (List.fst_mem_of_mem_zipIdx hrow)]

lemma fanOutCalls_congr (h : ∀ m ∈ recipe.proposers, o'.resolve m = o.resolve m)
    (request : ChatRequest) :
    fanOutCalls o' ctx recipe request = fanOutCalls o ctx recipe request := by
  refine List.filterMap_congr fun row hrow => ?_
  unfold armCall
  rw [h row.1 (List.fst_mem_of_mem_zipIdx hrow)]

/-- A run reads its recipe and what the recipe's members resolve to, and nothing else of the
configuration. -/
theorem run_congr {name : String} (hrecipe : o'.recipe name = o.recipe name)
    (hmembers : ∀ recipe, o.recipe name = some recipe →
      ∀ m ∈ recipe.aggregator :: recipe.proposers, o'.resolve m = o.resolve m)
    (completion : CompletionOrder) (now : Instant) (request : ChatRequest) :
    run U serde o' ctx completion now name request =
      run U serde o ctx completion now name request := by
  unfold run
  rw [hrecipe]
  cases hsome : o.recipe name with
  | none => rfl
  | some recipe =>
      have haggregator := hmembers recipe hsome _ (List.mem_cons_self ..)
      have hproposers := fun m hm => hmembers recipe hsome m (List.mem_cons_of_mem _ hm)
      simp only [fanOutTime, fanOut_congr hproposers, fanOutCalls_congr hproposers,
        conclude_congr haggregator]

end Moa

/-! ## Snapshots -/

/-- The recipe a key opens: by the name of the recipe, or by the alias. -/
def AuthContext.Opens (auth : AuthContext) (recipe : String) : Prop :=
  auth.allows (moaPrefix ++ recipe) ∨ recipe = "auto" ∧ auth.allows moaAuto

/-- The models that answer a caller: those of his key, and the members of the recipes it opens. -/
def AuthContext.Reaches (auth : AuthContext) (rt : Runtime) (model : String) : Prop :=
  auth.allows model ∨ ∃ name recipe, auth.Opens name ∧
    rt.orchestrator.recipe name = some recipe ∧ model ∈ recipe.aggregator :: recipe.proposers

/-- Two snapshots differ in what a caller may not use: they agree on the names and prices of what
answers him, on its providers, and on the recipes he may open. -/
structure Unseen (auth : AuthContext) (rt rt' : Runtime) : Prop where
  models : ∀ m, auth.allows m → rt'.config.models.contains m = rt.config.models.contains m
  providers : ∀ m, auth.allows m → rt'.providers[m]? = rt.providers[m]?
  recipes : ∀ r, auth.Opens r → rt'.orchestrator.recipe r = rt.orchestrator.recipe r
  members : ∀ m, auth.Reaches rt m → rt'.orchestrator.resolve m = rt.orchestrator.resolve m
  prices : ∀ m, auth.Reaches rt m →
    modelPrices rt'.config.models m = modelPrices rt.config.models m

lemma eq_append_of_stripPrefix {s pat rest : String} (h : stripPrefix s pat = some rest) :
    s = pat ++ rest := by
  unfold stripPrefix at h
  split at h
  · rename_i hprefix
    obtain ⟨tail, htail⟩ := List.isPrefixOf_iff_prefix.1 hprefix
    obtain rfl := Option.some.inj h
    apply String.toList_injective
    rw [String.toList_append, ← htail]
    simp [String.length_toList]
  · cases h

/-- A model the key allows and the router takes for a recipe opens it. -/
lemma AuthContext.opens_of_route {auth : AuthContext} {model recipe : String}
    {known : String → Bool} (hallows : auth.allows model) (h : route model known = .moa recipe) :
    auth.Opens recipe := by
  unfold route at h
  split at h
  · rename_i rest hrest
    split at h
    · cases h
    · obtain rfl := RouteTarget.moa.inj h
      left
      rw [← eq_append_of_stripPrefix hrest]
      exact hallows
  · split at h
    · rename_i hauto
      obtain rfl := RouteTarget.moa.inj h
      exact .inr ⟨rfl, hauto ▸ hallows⟩
    · split at h <;> cases h

lemma route_congr {model : String} {known known' : String → Bool}
    (h : known' model = known model) : route model known' = route model known := by
  unfold route
  rw [h]

lemma eq_of_route_passthrough {model name : String} {known : String → Bool}
    (h : route model known = .passthrough name) : name = model := by
  unfold route at h
  split at h
  · split at h <;> cases h
  · split at h
    · cases h
    · split at h
      · exact (RouteTarget.passthrough.inj h).symm
      · cases h

/-! ## The handler -/

section Handler

variable {ρ : Type} {w : Surroundings ρ} {rt' : Runtime} {auth : AuthContext}

lemma passthroughRow_congr {b b' : Booking} {model : String}
    (hsame : b' = { b with models := b'.models })
    (hprices : modelPrices b'.models model = modelPrices b.models model) (upstreamId : String)
    (raw : RawResponse) :
    passthroughRow b' model upstreamId raw = passthroughRow b model upstreamId raw := by
  unfold passthroughRow
  rw [hprices, hsame]

lemma bookMoaArm_congr {b b' : Booking} {arm : Moa.ArmOutcome}
    (hsame : b' = { b with models := b'.models })
    (hprices : modelPrices b'.models arm.model = modelPrices b.models arm.model)
    (kind : UsageArm) : bookMoaArm b' kind arm = bookMoaArm b kind arm := by
  unfold bookMoaArm
  rw [hprices, hsame]

namespace App

/-- A passthrough reads the price of its model from the snapshot. -/
lemma passthrough_congr {requestId : String} {raw : Bytes} {model : String} {stream : Bool}
    {provider : ProviderRef} {rt : Runtime}
    (hprices : modelPrices rt'.config.models model = modelPrices rt.config.models model) :
    passthrough { w with runtime := rt' } requestId auth raw model stream provider rt' =
      passthrough w requestId auth raw model stream provider rt := by
  have hrow : ∀ raw,
      passthroughRow (booking { w with runtime := rt' } requestId auth.keyId rt') model
          provider.upstreamId raw =
        passthroughRow (booking w requestId auth.keyId rt) model provider.upstreamId raw :=
    passthroughRow_congr rfl hprices provider.upstreamId
  unfold passthrough
  simp only [hrow]
  rfl

/-- The arms that are booked are those of the recipe's members. -/
lemma model_of_bookedArms {requestId callerKeyId name model : String} {request : ChatRequest}
    {rt : Runtime} {moa : Moa.MoaRun} {arm : UsageArm × Moa.ArmOutcome}
    (hrun : (orchestrate w requestId callerKeyId name model request rt).1 = .ok moa)
    (harm : arm ∈ bookedArms moa) :
    ∃ recipe, rt.orchestrator.recipe name = some recipe ∧
      arm.2.model ∈ recipe.aggregator :: recipe.proposers := by
  obtain ⟨recipe, hrecipe, hproposers, haggregator⟩ := Moa.arms_of_run hrun
  refine ⟨recipe, hrecipe, ?_⟩
  rcases List.mem_append.1 harm with harm | harm
  · obtain ⟨outcome, houtcome, rfl⟩ := List.mem_map.1 harm
    rw [hproposers] at houtcome
    obtain ⟨row, hrow, rfl⟩ := List.mem_map.1 houtcome
    exact List.mem_cons_of_mem _ (List.fst_mem_of_mem_zipIdx hrow)
  · obtain ⟨outcome, houtcome, rfl⟩ := List.mem_map.1 harm
    rw [Option.mem_toList] at houtcome
    rcases haggregator with hnone | hsome
    · rw [hnone] at houtcome
      cases houtcome
    · rw [hsome] at houtcome
      obtain ⟨call, -, rfl⟩ := Option.map_eq_some_iff.1 houtcome
      exact List.mem_cons_self ..

/-- A run reads its recipe, its members and their prices from the snapshot. -/
lemma runMoa_congr {requestId callerKeyId name : String} {raw : Bytes} {model : String}
    {rt : Runtime}
    (hrecipe : rt'.orchestrator.recipe name = rt.orchestrator.recipe name)
    (hmembers : ∀ recipe, rt.orchestrator.recipe name = some recipe →
      ∀ m ∈ recipe.aggregator :: recipe.proposers,
        rt'.orchestrator.resolve m = rt.orchestrator.resolve m ∧
          modelPrices rt'.config.models m = modelPrices rt.config.models m) :
    runMoa { w with runtime := rt' } requestId callerKeyId name raw model rt' =
      runMoa w requestId callerKeyId name raw model rt := by
  have horchestrate : ∀ request,
      orchestrate { w with runtime := rt' } requestId callerKeyId name model request rt' =
        orchestrate w requestId callerKeyId name model request rt := fun request =>
    Moa.run_congr hrecipe (fun recipe hr m hm => (hmembers recipe hr m hm).1) _ _ request
  have hbook : ∀ request moa,
      (orchestrate w requestId callerKeyId name model request rt).1 = .ok moa →
        (bookedArms moa).map (fun arm => (arm.2, bookMoaArm
            (booking { w with runtime := rt' } requestId callerKeyId rt') arm.1 arm.2)) =
          (bookedArms moa).map fun arm =>
            (arm.2, bookMoaArm (booking w requestId callerKeyId rt) arm.1 arm.2) := by
    intro request moa hrun
    refine List.map_congr_left fun arm harm => ?_
    obtain ⟨recipe, hr, hmem⟩ := model_of_bookedArms hrun harm
    rw [bookMoaArm_congr (b := booking w requestId callerKeyId rt) rfl
      (hmembers recipe hr _ hmem).2]
  unfold runMoa
  simp only [horchestrate]
  cases ChatRequest.fromSlice w.serde w.reader raw with
  | error e => rfl
  | ok request =>
      simp only
      cases hrun : (orchestrate w requestId callerKeyId name model request rt).1 with
      | error e => rfl
      | ok moa =>
          simp only [hbook request moa hrun]
          rfl

lemma routeBody_congr {rt : Runtime} (hunseen : Unseen auth rt rt') (body : Option Bytes)
    (limit : ℕ) :
    (∃ e, Server.routeBody w.serde rt' auth body limit = .error e ∧
        Server.routeBody w.serde rt auth body limit = .error e) ∨
      ∃ next next', Server.routeBody w.serde rt' auth body limit = .ok next' ∧
        Server.routeBody w.serde rt auth body limit = .ok next ∧
        ∀ requestId, execute { w with runtime := rt' } requestId next' =
          execute w requestId next := by
  unfold Server.routeBody
  cases toBytes body limit with
  | none => exact .inl ⟨_, rfl, rfl⟩
  | some raw =>
      simp only [bind, Except.bind]
      cases (w.serde.parse raw).mapError fun e => Error.badRequest ("invalid JSON: " ++ e) with
      | error e => exact .inl ⟨_, rfl, rfl⟩
      | ok parsed =>
          simp only
          cases (parsed.get "model").bind Value.asStr with
          | none => exact .inl ⟨_, rfl, rfl⟩
          | some model =>
              simp only
              cases hallows : auth.allows model with
              | false => exact .inl ⟨_, rfl, rfl⟩
              | true =>
                  simp only [Bool.not_true, Bool.false_eq_true, if_false,
                    route_congr (hunseen.models model hallows)]
                  cases hroute : route model fun m => rt.config.models.contains m with
                  | unknown name => exact .inl ⟨_, rfl, rfl⟩
                  | passthrough name =>
                      obtain rfl := eq_of_route_passthrough hroute
                      simp only [hunseen.providers name hallows]
                      cases rt.providers[name]? with
                      | none => exact .inl ⟨_, rfl, rfl⟩
                      | some provider =>
                          have hprices := hunseen.prices name (.inl hallows)
                          exact .inr ⟨_, _, rfl, rfl, fun requestId => passthrough_congr hprices⟩
                  | moa name =>
                      cases ((parsed.get "stream").bind Value.asBool).getD false with
                      | true => exact .inl ⟨_, rfl, rfl⟩
                      | false =>
                          have hopens := AuthContext.opens_of_route hallows hroute
                          refine .inr ⟨_, _, rfl, rfl, fun requestId => runMoa_congr
                            (hunseen.recipes name hopens) fun recipe hrecipe m hm => ?_⟩
                          have hreaches : auth.Reaches rt m :=
                            .inr ⟨name, recipe, hopens, hrecipe, hm⟩
                          exact ⟨hunseen.members m hreaches, hunseen.prices m hreaches⟩

lemma listModels_congr {req : Request}
    (hcaller : caller { w with runtime := rt' } req = caller w req)
    (hunseen : ∀ auth, caller w req = .ok auth → Unseen auth w.runtime rt') :
    listModels { w with runtime := rt' } req = listModels w req := by
  unfold listModels
  rw [hcaller]
  cases hauth : caller w req with
  | error e => rfl
  | ok auth =>
      show Except.ok _ = Except.ok _
      rw [Table.filter_keys_congr (hunseen auth hauth).models]

/-- **What a caller cannot learn.**  Exchange the snapshot a request is answered under for one in
which the other keys, the models the caller may not use, and the recipes he may not open are any
others, or none: his listing stays the same, and so do the response to any request, the rows that
are booked for it and the metrics. -/
theorem unseen_kept (w : Surroundings ρ) (rt' : Runtime) (req : Request)
    (hcaller : caller { w with runtime := rt' } req = caller w req)
    (hunseen : ∀ auth, caller w req = .ok auth → Unseen auth w.runtime rt') :
    listModels { w with runtime := rt' } req = listModels w req ∧
      chatCompletions { w with runtime := rt' } req = chatCompletions w req := by
  refine ⟨listModels_congr hcaller hunseen, ?_⟩
  have hpre := Server.preRoute_eq w req
  have hpre' := Server.preRoute_eq { w with runtime := rt' } req
  rw [hcaller] at hpre'
  cases hauth : caller w req with
  | error e =>
      rw [hauth] at hpre hpre'
      rw [Server.chatCompletions_error hpre, Server.chatCompletions_error hpre']
  | ok auth =>
      rw [hauth] at hpre hpre'
      cases hlimit : (w.stateful.checkKeyLimit auth.keyId w.limiter).2 with
      | error e =>
          simp only [bind, Except.bind, hlimit] at hpre hpre'
          rw [Server.chatCompletions_error hpre, Server.chatCompletions_error hpre']
      | ok u =>
          simp only [bind, Except.bind, hlimit] at hpre hpre'
          rcases routeBody_congr (w := w) (hunseen auth hauth) req.body w.atBody.maxBodyBytes with
            ⟨e, he', he⟩ | ⟨next, next', hnext', hnext, hexecute⟩
          · rw [Server.chatCompletions_error (hpre.trans he),
              Server.chatCompletions_error (hpre'.trans he')]
          · rw [Server.chatCompletions_ok (hpre.trans hnext),
              Server.chatCompletions_ok (hpre'.trans hnext'), hexecute]

/-- The snapshot of the stray request, with a key of someone else's and a model for it. -/
def crowdedRuntime : Runtime :=
  { strayWorld.runtime with
    config :=
      { strayWorld.runtime.config with
        keys := strayWorld.runtime.config.keys ++
          [{ id := "other", secret := .plain "t", allowModels := ["opus"], rateLimit := none }]
        models := (∅ : Table String ModelConfig).insert "opus" (Reload.soloModel none) } }

lemma unseen_crowdedRuntime {auth : AuthContext} (h : auth.allowModels = ["moa/r"]) :
    Unseen auth strayWorld.runtime crowdedRuntime := by
  have hallowed : ∀ m, auth.allows m → m = "moa/r" := by
    intro m hm
    simpa [AuthContext.allows, h] using hm
  have hreached : ∀ m, auth.Reaches strayWorld.runtime m → m = "moa/r" := by
    rintro m (hm | ⟨name, recipe, -, hrecipe, -⟩)
    · exact hallowed m hm
    · have hnone : (∅ : Table String Recipe)[name]? = some recipe := hrecipe
      rw [Std.ExtTreeMap.getElem?_empty] at hnone
      cases hnone
  refine ⟨fun m hm => ?_, fun m _ => rfl, fun r _ => rfl, fun m _ => rfl, fun m hm => ?_⟩
  · rw [hallowed m hm]
    decide +kernel
  · rw [hreached m hm]
    decide +kernel

lemma caller_strayWorld :
    caller strayWorld strayRequest = .ok { keyId := "k", allowModels := ["moa/r"] } := rfl

lemma caller_crowdedRuntime :
    caller { strayWorld with runtime := crowdedRuntime } strayRequest =
      .ok { keyId := "k", allowModels := ["moa/r"] } := rfl

theorem unseen_kept_crowded :
    (chatCompletions { strayWorld with runtime := crowdedRuntime } strayRequest).result.status =
      400 := by
  have hkept := unseen_kept strayWorld crowdedRuntime strayRequest
    (caller_crowdedRuntime.trans caller_strayWorld.symm) fun auth hauth => by
      rw [caller_strayWorld] at hauth
      obtain rfl := Except.ok.inj hauth
      exact unseen_crowdedRuntime rfl
  exact congrArg (fun served => served.result.status) hkept.2

end App

end Handler

end Moaray
