import Moaray.Gateway.Secrets

/-!
# The names a configuration gives

Model names and recipe names come from the configuration, the listing advertises them, and the
router reads them: first as the prefix of a recipe, then as the alias, then as a model.

* `Plain` — a name the router takes for a model's.
* `route_passthrough_iff`, `route_recipe_iff` — which names are taken for what.
* `EverythingReachable` — what the configuration names is reached under that name.
* `everythingReachable_iff` — for which validated configurations that holds.
* `shadowed_model` — a model that is listed, and cannot be posted to.

Reaching a model takes four things: it is listed to the caller, the caller may use it, the router
takes its name for a model's, and it has a provider.  For what is listed, validation and the build
provide the last, and the allowlist is the same in both places; so the router is what is left.  A
recipe is reached under its prefixed name unless its name is empty.

**Design.**  The statement is about every request that asks for the name and passes the gates
before routing (`Posts`), with any body; the condition is about the configuration alone.
-/

namespace Moaray

open Framework Json

variable {ρ : Type}

/-! ## Routing -/

/-- Neither the prefix of recipes nor the alias claims the name. -/
def Plain (name : String) : Prop := stripPrefix name moaPrefix = none ∧ name ≠ moaAuto

lemma route_passthrough_iff {name : String} {known : String → Bool} (hknown : known name) :
    route name known = .passthrough name ↔ Plain name := by
  unfold route Plain
  cases stripPrefix name moaPrefix with
  | some recipe =>
      by_cases hempty : recipe.isEmpty <;> simp [hempty]
  | none =>
      by_cases halias : name = moaAuto <;> simp [halias, hknown]

/-- A prefixed name is that of the recipe, if the recipe has a name at all. -/
lemma route_recipe_iff {recipe : String} {known : String → Bool} :
    route (moaPrefix ++ recipe) known = .moa recipe ↔ recipe ≠ "" := by
  unfold route
  rw [stripPrefix_append]
  by_cases hempty : recipe = "" <;> simp [hempty]

/-! ## The listing -/

def listedIds (resp : Response) : List String :=
  match resp.body with
  | .json v =>
      (((v.get "data").bind Value.asArray).getD []).filterMap fun m =>
        (m.get "id").bind Value.asStr
  | .stream _ => []

lemma get_modelJson (m : String) : (App.modelJson m).get "id" = some (.string m) := by
  show Map.get (Map.ofFields _) "id" = _
  rw [Map.get_ofFields]
  rfl

lemma listedIds_eq (names : List String) :
    listedIds (jsonResponse 200
      (.object (Map.ofFields
        [("object", .string "list"), ("data", .array (names.map App.modelJson))]))) = names := by
  have hdata : Map.get (Map.ofFields
      [("object", .string "list"), ("data", .array (names.map App.modelJson))]) "data" =
        some (.array (names.map App.modelJson)) := by
    rw [Map.get_ofFields]
    rfl
  show ((Option.bind (Map.get _ "data") Value.asArray).getD []).filterMap _ = names
  rw [hdata]
  show (names.map App.modelJson).filterMap _ = names
  rw [List.filterMap_map]
  have hid : (fun m => (Option.bind (Value.get m "id") Value.asStr)) ∘ App.modelJson = some := by
    funext m
    simp only [Function.comp_apply, get_modelJson]
    rfl
  rw [hid, List.filterMap_some]

namespace App

/-- The request passes the gates before routing, and its body asks for the model. -/
structure Posts (w : Surroundings ρ) (req : Request) (name : String) : Prop where
  limit : ∀ auth, caller w req = .ok auth →
    (w.stateful.checkKeyLimit auth.keyId w.limiter).2 = .ok ()
  body : ∃ raw parsed, toBytes req.body w.atBody.maxBodyBytes = some raw ∧
    w.serde.parse raw = .ok parsed ∧ (parsed.get "model").bind Value.asStr = some name

variable {w : Surroundings ρ} {req : Request} {name : String}

/-- What is listed to a caller is configured, and his to use. -/
lemma listed_iff {resp : Response} (h : listModels w req = .ok resp) :
    ∃ auth, caller w req = .ok auth ∧
      ∀ name, name ∈ listedIds resp ↔
        (∃ m, w.runtime.config.models[name]? = some m) ∧ auth.allows name := by
  obtain ⟨auth, hauth, hresp⟩ := bind_eq_ok.1 h
  obtain rfl := Except.ok.inj hresp
  refine ⟨auth, hauth, fun name => ?_⟩
  have hkey : name ∈ w.runtime.config.models.keys ↔
      ∃ m, w.runtime.config.models[name]? = some m := by
    rw [Std.ExtTreeMap.mem_keys, Std.ExtTreeMap.mem_iff_isSome_getElem?,
      Option.isSome_iff_exists]
  rw [listedIds_eq, List.mem_filter, hkey]

/-- A model the caller may use is relayed to its provider, if the router takes its name. -/
lemma preRoute_passthrough {auth : AuthContext} (hauth : caller w req = .ok auth)
    (hallows : auth.allows name) (hposts : Posts w req name)
    (hroute : route name (fun m => w.runtime.config.models.contains m) = .passthrough name)
    {provider : ProviderRef} (hprovider : w.runtime.providers[name]? = some provider) :
    ∃ raw stream, preRoute w req = .ok (.passthrough auth raw name stream provider w.runtime) := by
  obtain ⟨raw, parsed, hraw, hparsed, hmodel⟩ := hposts.body
  refine ⟨raw, ((parsed.get "stream").bind Value.asBool).getD false, ?_⟩
  have hlimit := hposts.limit auth hauth
  simp only [preRoute, bind, Except.bind, Except.mapError, hauth, hlimit, hraw, hparsed, hmodel,
    hallows, hroute, hprovider, Bool.not_true, Bool.false_eq_true, if_false]

end App

/-! ## Reaching what is configured -/

section Reaching

variable {P : Platform} {doc : ConfigDoc} {config : RuntimeConfig} {env : String → Option String}
  {stateful : StatefulState ρ} {prev : Option (Table String BuiltProvider)} {next : ℕ}
  {build : Build} {frozen : RuntimeConfig}

/-- What the configuration names is reached under that name, in a runtime of a build of it. -/
structure EverythingReachable (env : String → Option String) (config : RuntimeConfig)
    (stateful : StatefulState ρ) (prev : Option (Table String BuiltProvider)) (build : Build)
    (rt : Runtime) : Prop where
  /-- A model that is listed to a key is relayed, when that key posts it, to the provider built for
  that model. -/
  listed :
    ∀ (w : Surroundings ρ) req resp name, w.runtime = rt → App.listModels w req = .ok resp →
      name ∈ listedIds resp → App.Posts w req name →
      ∃ auth raw stream m b,
        App.preRoute w req = .ok (.passthrough auth raw name stream b.ref rt) ∧
          config.models[name]? = some m ∧ build.providers[name]? = some b ∧
          BuiltFrom env config.server stateful prev name m b
  /-- A recipe is asked for by its prefixed name, and the orchestrator has it. -/
  recipes :
    ∀ (r : String) recipe, config.recipes[r]? = some recipe →
      route (moaPrefix ++ r) (fun m => rt.config.models.contains m) = .moa r ∧
        rt.orchestrator.recipe r = some (toMoaRecipe recipe)
  /-- No model's name means something else. -/
  models :
    ∀ (name : String) m, config.models[name]? = some m →
      route name (fun m => rt.config.models.contains m) = .passthrough name

lemma contains_of_getElem? {models : Table String ModelConfig} {name : String} {m : ModelConfig}
    (h : models[name]? = some m) : models.contains name := by
  rw [Std.ExtTreeMap.contains_eq_isSome_getElem?, h]
  rfl

/-- What is listed is relayed, as far as the router takes the names of models for such. -/
lemma passthrough_of_listed
    (hbuild : buildProvidersWith env config stateful prev next = .ok build)
    (hplain : ∀ (name : String) m, config.models[name]? = some m → Plain name)
    {w : Surroundings ρ} {req : Request} {resp : Response} {name : String}
    (hruntime : w.runtime = runtimeOf config (publishedConfig config frozen) build.providers)
    (hlist : App.listModels w req = .ok resp) (hname : name ∈ listedIds resp)
    (hposts : App.Posts w req name) :
    ∃ auth raw stream m b,
      App.preRoute w req = .ok (.passthrough auth raw name stream b.ref w.runtime) ∧
        config.models[name]? = some m ∧ build.providers[name]? = some b ∧
        BuiltFrom env config.server stateful prev name m b := by
  obtain ⟨auth, hauth, hids⟩ := App.listed_iff hlist
  obtain ⟨⟨m, hm⟩, hallows⟩ := (hids name).1 hname
  have hmodels : w.runtime.config.models = config.models := by
    rw [hruntime]
    rfl
  have hroute : route name (fun m => w.runtime.config.models.contains m) = .passthrough name :=
    (route_passthrough_iff (contains_of_getElem? hm)).2 (hplain name m (hmodels ▸ hm))
  rw [hmodels] at hm
  obtain ⟨b, hb, hfrom⟩ := buildProvidersWith_ok hbuild hm
  have hprovider : w.runtime.providers[name]? = some b.ref := by
    rw [hruntime]
    show (build.providers.map fun _ b => b.ref)[name]? = _
    rw [Std.ExtTreeMap.getElem?_map, hb]
    rfl
  obtain ⟨raw, stream, hpre⟩ :=
    App.preRoute_passthrough hauth hallows hposts hroute hprovider
  exact ⟨auth, raw, stream, m, b, hpre, hm, hb, hfrom⟩

/-- **When everything configured is reachable.**  In every runtime made of a validated
configuration that is exactly if no model is named like a recipe or the alias, and no recipe has
the empty name. -/
theorem everythingReachable_iff (h : validate P doc = .ok config)
    (hbuild : buildProvidersWith env config stateful prev next = .ok build) :
    EverythingReachable env config stateful prev build
        (runtimeOf config (publishedConfig config frozen) build.providers) ↔
      (∀ m ∈ doc.models, Plain m.name) ∧ doc.recipes[""]? = none := by
  obtain ⟨hwf, rfl⟩ := validate_ok_iff.1 h
  have hdescribes := hwf.describes
  constructor
  · rintro ⟨-, hrecipes, hmodels⟩
    constructor
    · intro m hm
      have hconfig := hdescribes.model m hm
      exact (route_passthrough_iff (contains_of_getElem? hconfig)).1 (hmodels _ _ hconfig)
    · refine Option.eq_none_iff_forall_ne_some.2 fun r hr => ?_
      have hconfig := hdescribes.recipes ""
      rw [hr] at hconfig
      exact route_recipe_iff.1 (hrecipes _ _ hconfig).1 rfl
  · rintro ⟨hplain, hnone⟩
    have hnames : ∀ (name : String) m, (doc.config P).models[name]? = some m → Plain name := by
      intro name m hm
      obtain ⟨m', hm', rfl, -⟩ := hdescribes.models_only name m hm
      exact hplain m' hm'
    constructor
    · intro w req resp name hruntime hlist hname hposts
      have hreached := passthrough_of_listed hbuild hnames hruntime hlist hname hposts
      rwa [hruntime] at hreached
    · intro r recipe hrecipe
      constructor
      · refine route_recipe_iff.2 ?_
        rintro rfl
        rw [hdescribes.recipes, hnone] at hrecipe
        cases hrecipe
      · show ((doc.config P).recipes.map fun _ r => toMoaRecipe r)[r]? = _
        rw [Std.ExtTreeMap.getElem?_map, hrecipe]
        rfl
    · intro name m hm
      exact (route_passthrough_iff (contains_of_getElem? hm)).2 (hnames name m hm)

end Reaching

/-! ## A model named like a recipe -/

/-- A validated configuration is built when the server starts. -/
lemma exists_first_build {P : Platform} {config : RuntimeConfig} (h : Validated P config)
    (env : String → Option String) :
    ∃ build, buildProvidersWith env config (StatefulState.fromConfig config : StatefulState ρ)
      none 0 = .ok build := by
  obtain ⟨r, hr⟩ := Reload.startup_isOk (ρ := ρ) h env "moaray.yaml"
  obtain ⟨build, hbuild, -⟩ := Reload.startup_ok hr
  exact ⟨build, hbuild⟩

/-- One model with a name of its own: everything is reached. -/
theorem everythingReachable_iff_team :
    let config := (teamWorld "token-a").runtime.config
    let stateful : StatefulState Unit := StatefulState.fromConfig config
    ∃ build, buildProvidersWith (onlySecret "token-a").env config stateful none 0 = .ok build ∧
      EverythingReachable (onlySecret "token-a").env config stateful none build
        (runtimeOf config (publishedConfig config config) build.providers) := by
  intro config stateful
  have hvalid : validate (onlySecret "token-a") teamDoc = .ok config := validate_team "token-a"
  obtain ⟨build, hbuild⟩ :=
    exists_first_build (ρ := Unit) ⟨teamDoc, hvalid⟩ (onlySecret "token-a").env
  refine ⟨build, hbuild, (everythingReachable_iff hvalid hbuild).2 ⟨fun m hm => ?_, rfl⟩⟩
  obtain rfl := List.mem_singleton.1 hm
  exact ⟨by decide +kernel, by decide +kernel⟩

/-- One key, and one model that is named like a recipe. -/
def shadowDoc : ConfigDoc where
  keys :=
    [{ id := "team", keyEnv := some "INBOUND_A", keySha256 := none, allowModels := ["moa/opus"],
       rateLimit := none }]
  models :=
    [{ name := "moa/opus", providerType := .anthropic, baseUrl := "https://a",
       apiKeyEnv := "UPSTREAM_KEY", upstreamId := none, rateLimit := none, maxConcurrency := none,
       pricePromptPerMtokUsd := none, priceCompletionPerMtokUsd := none }]

/-- The gateway that runs on a build of it, and reads every body as asking for that model. -/
def shadowWorld (config : RuntimeConfig) (build : Build) : Surroundings Unit :=
  { App.strayWorld with
    serde :=
      { parse := fun _ => .ok (.object [("model", .string "moa/opus")])
        print := fun _ => "null" }
    runtime := runtimeOf config (publishedConfig config config) build.providers }

def shadowRequest : Request where
  requestId := "r"
  authorization := some "Bearer token-a"
  body := some []

/-- The model is accepted and listed, and a post of it runs a recipe. -/
theorem shadowed_model :
    ∃ config build,
      let stateful : StatefulState Unit := StatefulState.fromConfig config
      validate (onlySecret "token-a") shadowDoc = .ok config ∧
        buildProvidersWith (onlySecret "token-a").env config stateful none 0 = .ok build ∧
        (App.listModels (shadowWorld config build) shadowRequest).map listedIds =
          .ok ["moa/opus"] ∧
        (∃ rt, App.preRoute (shadowWorld config build) shadowRequest =
          .ok (.moa "team" "opus" [] "moa/opus" rt)) ∧
        ¬ EverythingReachable (onlySecret "token-a").env config stateful none build
          (shadowWorld config build).runtime := by
  have hvalid : validate (onlySecret "token-a") shadowDoc =
      .ok (shadowDoc.config (onlySecret "token-a")) := rfl
  obtain ⟨build, hbuild⟩ :=
    exists_first_build (ρ := Unit) ⟨shadowDoc, hvalid⟩ (onlySecret "token-a").env
  have hcaller : App.caller (shadowWorld (shadowDoc.config (onlySecret "token-a")) build)
      shadowRequest = .ok { keyId := "team", allowModels := ["moa/opus"] } := rfl
  have hlisted : (App.listModels (shadowWorld (shadowDoc.config (onlySecret "token-a")) build)
      shadowRequest).map listedIds = .ok ["moa/opus"] := by
    rw [App.listModels, hcaller]
    show Except.ok (listedIds (jsonResponse 200 _)) = _
    rw [listedIds_eq]
    have hnames : (shadowDoc.config (onlySecret "token-a")).models.keys.filter
        ["moa/opus"].contains = ["moa/opus"] := by decide +kernel
    exact congrArg Except.ok hnames
  refine ⟨_, build, hvalid, hbuild, hlisted, ⟨_, rfl⟩, fun h => ?_⟩
  have hknown : (shadowDoc.config (onlySecret "token-a")).models.contains "moa/opus" := by
    decide +kernel
  have hplain := (route_passthrough_iff hknown).1 (h.models "moa/opus" _ rfl)
  exact absurd hplain.1 (by decide +kernel)

end Moaray
