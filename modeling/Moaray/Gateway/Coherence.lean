import Moaray.Gateway.Reload

/-!
# Providers and slots stay coherent across reloads

Three structures evolve together: the published runtime, the map of slots, and the previous build
whose providers may be reused.

* `Consistent` — at every statement of a reload, the slots it has ensured so far and the ones the
  published runtime still needs; `consistent_of_reachable`.
* `all_or_nothing` — a failed reload changed nothing, and applying a validated configuration does
  not fail.
* `Bound` — the providers of a build hold the slots their models are keyed to.
* `forall_deref_of_reachable` — what fresh slots have and traffic keeps, every slot has.
* `routable_coherent` — every routable upstream has its slot at every moment, and between reloads
  the providers, the slots and the published settings agree.

The source ensures the slots of the new configuration before it publishes, and reclaims those of
the old one only after.  `Consistent` is what this order is for: before publication every identity
of the old configuration has a slot, whatever the reload has done so far, and those of the new one
that were visited are served; from publication on every identity of the new one is.

**Design.**  A collection drops only identities the published configuration does not have, and it
holds the lock, so it finds no reload in the middle.  Traffic changes the contents of slots and not
the map, and not what a slot was built for.  So each of the steps that are no statement of a reload
keeps the invariant by a lemma about pools, and `Consistent.step` is about the reload alone.

That reused providers are bound to the right slots rests on the signature: it has to tell apart
what differs in identity or governance.  This is an assumption here, and when it holds is settled
elsewhere.
-/

namespace Moaray

open Framework

variable {ρ : Type}

namespace Reload

/-! ## Slots of a configuration -/

/-- Every upstream identity of the configuration has a slot.  With which limits is left open. -/
def Routable (slots : Pool String (Governed.State ρ)) (config : RuntimeConfig) : Prop :=
  ∀ m ∈ Table.rows config.models, (slots.lookup m.stateKey).isSome

/-- A model has a slot of the governance it asks for. -/
def Served (slots : Pool String (Governed.State ρ)) (config : RuntimeConfig) (m : ModelConfig) :
    Prop :=
  Pool.Meets governanceOf slots m.stateKey (UpstreamGovernance.of m config.server.breaker)

/-- Every model of the configuration has a slot of the governance it asks for. -/
def Serves (slots : Pool String (Governed.State ρ)) (config : RuntimeConfig) : Prop :=
  ∀ m ∈ Table.rows config.models, Served slots config m

section Slots

variable {slots slots' : Pool String (Governed.State ρ)} {config : RuntimeConfig}

lemma Served.isSome {m : ModelConfig} (h : Served slots config m) :
    (slots.lookup m.stateKey).isSome := by
  obtain ⟨r, _, hr, -, -⟩ := h
  simp [hr]

lemma Serves.routable (h : Serves slots config) : Routable slots config :=
  fun m hm => (h m hm).isSome

/-- Serving the requests of a validated configuration serves its models. -/
lemma serves_ensureAll {P : Platform} (hvalid : Validated P config) :
    Serves (slots.ensureAll governanceOf freshSlot (StatefulState.requests config)) config := by
  intro m hm
  refine Pool.meets_ensureAll governanceOf_freshSlot ?_ ?_
  · intro i hi hkey
    obtain ⟨m', hm', rfl⟩ := List.mem_map.1 hi
    exact StatefulState.of_eq_of_stateKey hvalid hm' hm hkey _
  · exact List.mem_map.2 ⟨m, hm, rfl⟩

/-- One more model is served, and the ones served before still are. -/
lemma Served.ensure {P : Platform} (hvalid : Validated P config) {m m' : ModelConfig}
    (hm : m ∈ Table.rows config.models) (hm' : m' ∈ Table.rows config.models)
    (h : Served slots config m') :
    Served (slots.ensure governanceOf freshSlot m.stateKey
      (UpstreamGovernance.of m config.server.breaker)) config m' := by
  by_cases hkey : m.stateKey = m'.stateKey
  · have hof := StatefulState.of_eq_of_stateKey hvalid hm hm' hkey config.server.breaker
    rw [hkey, hof, Pool.ensure_of_meets h]
    exact h
  · exact Pool.Meets.mono Pool.cells_prefix_ensure
      (Pool.lookup_ensure_ne governanceOf freshSlot slots _ hkey) h

/-- Collecting the identities a configuration does not have leaves its own alone. -/
lemma lookup_retain_live {m : ModelConfig} (hm : m ∈ Table.rows config.models) :
    (slots.retain (StatefulState.liveUpstream config)).lookup m.stateKey =
      slots.lookup m.stateKey := by
  have hlive : StatefulState.liveUpstream config m.stateKey = true :=
    List.any_eq_true.2 ⟨m, hm, by simp⟩
  rw [Pool.lookup_retain, if_pos hlive]

lemma Served.retain {m : ModelConfig} (hm : m ∈ Table.rows config.models)
    (h : Served slots config m) :
    Served (slots.retain (StatefulState.liveUpstream config)) config m := by
  obtain ⟨r, slot, hr, hslot, hgov⟩ := h
  exact ⟨r, slot, by rw [lookup_retain_live hm, hr], hslot, hgov⟩

/-- Traffic over a slot serves nobody worse, since it does not change what the slot was built for.
-/
lemma Served.traffic {calls : ℕ → Governed.Call} {m : ModelConfig} {r : ℕ}
    {slot slot' : Governed.State ρ} {a : Governed.Action ρ} (hr : slots.deref r = some slot)
    (ha : (Governed.machine calls).step slot a = some slot') (h : Served slots config m) :
    Served (slots.update r slot') config m :=
  (Pool.meets_update hr (Governed.governanceOf_step ha)).2 h

end Slots

/-! ## The invariant of the lock's holder -/

/-- What holds of the slots at every statement of a reload.  While slots are being ensured the
published models are still routable, and those the loop is through with are served. -/
def Consistent (slots : Pool String (Governed.State ρ)) (config : RuntimeConfig) : Stage → Prop
  | .idle | .published _ _ _ | .remembered _ _ => Serves slots config
  | .ensuring job todo =>
      Routable slots config ∧ (∃ P, Validated P job.new) ∧
        ∃ done, Table.rows job.new.models = done ++ todo ∧ ∀ m ∈ done, Served slots job.new m
  | .installing job _ _ _ => Routable slots config ∧ Serves slots job.new

lemma Consistent.traffic {slots : Pool String (Governed.State ρ)} {config : RuntimeConfig}
    {stage : Stage} {calls : ℕ → Governed.Call} {r : ℕ} {slot slot' : Governed.State ρ}
    {a : Governed.Action ρ} (hr : slots.deref r = some slot)
    (ha : (Governed.machine calls).step slot a = some slot')
    (h : Consistent slots config stage) : Consistent (slots.update r slot') config stage := by
  cases stage with
  | idle | published | remembered => exact fun m hm => (h m hm).traffic hr ha
  | ensuring job todo =>
      obtain ⟨hroute, hvalid, done, hrows, hdone⟩ := h
      exact ⟨hroute, hvalid, done, hrows, fun m hm => (hdone m hm).traffic hr ha⟩
  | installing job built outcome todo =>
      obtain ⟨hroute, hserves⟩ := h
      exact ⟨hroute, fun m hm => (hserves m hm).traffic hr ha⟩

variable {calls : ℕ → ℕ → Governed.Call} {s t : System ρ} {a : Action ρ}

/-- Once every model has been visited, the whole new configuration is served. -/
lemma Consistent.serves {slots : Pool String (Governed.State ρ)} {config : RuntimeConfig}
    {job : Job} (h : Consistent slots config (.ensuring job [])) : Serves slots job.new := by
  obtain ⟨-, -, done, hrows, hdone⟩ := h
  rw [List.append_nil] at hrows
  intro m hm
  exact hdone m (hrows ▸ hm)

/-- Step 4 succeeds: step 3 has just guaranteed every slot it looks up. -/
lemma Consistent.build_isOk (hs : s.stage = .ensuring job [])
    (h : Consistent s.slots s.config s.stage) :
    ∃ built, buildProvidersWith job.env job.new s.core.stateful (some s.core.lastBuilt)
      s.core.nextSerial = .ok built := by
  rw [hs] at h
  exact buildProvidersWith_isOk fun m hm => (h.serves m hm).isSome

/-- Every statement of a reload keeps the invariant, and so does everything that runs in between. -/
theorem Consistent.step (h : Moves calls s a t) (hs : Consistent s.slots s.config s.stage) :
    Consistent t.slots t.config t.stage := by
  cases h with
  | reject hidle hread =>
      rw [hidle] at hs
      exact hs
  | @start w new hidle hread =>
      rw [hidle] at hs
      exact ⟨hs.routable, ⟨_, validated_of_readConfig hread⟩, [], rfl, nofun⟩
  | @ensure job m todo hstage =>
      rw [hstage] at hs
      obtain ⟨hroute, ⟨P, hvalid⟩, done, hrows, hdone⟩ := hs
      have hm : m ∈ Table.rows job.new.models := by simp [hrows]
      refine ⟨?_, ⟨P, hvalid⟩, done ++ [m], by simp [hrows], ?_⟩
      · intro m' hm'
        exact Pool.lookup_ensure_isSome_of_isSome (hroute m' hm')
      · intro m' hm'
        rcases List.mem_append.1 hm' with hin | hlast
        · have hrow : m' ∈ Table.rows job.new.models := by simp [hrows, hin]
          exact (hdone m' hin).ensure hvalid hm hrow
        · obtain rfl : m' = m := by simpa using hlast
          exact Pool.meets_ensure governanceOf_freshSlot
  | @build job hstage =>
      obtain ⟨built, hbuilt⟩ := Consistent.build_isOk hstage hs
      rw [hstage] at hs
      rw [System.build_ok hbuilt]
      exact ⟨hs.1, hs.serves⟩
  | publish hstage =>
      rw [hstage] at hs
      exact hs.2
  | install hstage | remember hstage | finish hstage =>
      rw [hstage] at hs
      exact hs
  | collect hidle hgc =>
      rw [hidle] at hs
      show Consistent s.collect.slots s.config s.stage
      rw [hidle]
      exact fun m hm => (hs m hm).retain hm
  | upstream hr ha => exact hs.traffic hr ha
  | request =>
      rw [System.slots_request, System.config_request, System.stage_request]
      exact hs

lemma slots_fromConfig (config : RuntimeConfig) :
    (StatefulState.fromConfig config : StatefulState ρ).perUpstream =
      Pool.empty.ensureAll governanceOf freshSlot (StatefulState.requests config) :=
  StatefulState.foldl_ensureModel _ _ _

lemma startup_ok {env : String → Option String} {config : RuntimeConfig} {path : String}
    {r : ConfigReloader ρ} (h : ConfigReloader.startup env config path = .ok r) :
    ∃ built, buildProvidersWith env config (StatefulState.fromConfig config : StatefulState ρ)
        none 0 = .ok built ∧
      r =
        { stateful := StatefulState.fromConfig config,
          runtime := runtimeOf config config built.providers, configPath := path,
          lastBuilt := built.providers, nextSerial := built.next, pendingGc := 0 } := by
  unfold ConfigReloader.startup at h
  simp only [] at h
  split at h
  · cases h
  · rename_i built hbuilt
    cases h
    exact ⟨built, hbuilt, rfl⟩

lemma Started.consistent (h : Started s) : Consistent s.slots s.config s.stage := by
  obtain ⟨P, config, path, hvalid, hcore, hidle, -⟩ := h
  obtain ⟨built, -, hs⟩ := startup_ok hcore
  rw [hidle]
  show Serves s.core.stateful.perUpstream s.core.runtime.config
  rw [hs, slots_fromConfig]
  exact serves_ensureAll hvalid

/-- The invariant holds in every reachable state.  Calls and collections go on between any two
statements of a reload, and it holds there too. -/
theorem consistent_of_reachable (h : (machine calls).Reachable Started s) :
    Consistent s.slots s.config s.stage :=
  h.invariant (I := fun s => Consistent s.slots s.config s.stage) (fun _ hs => hs.consistent)
    fun _ _ _ hs hstep => Consistent.step (moves_of_step hstep) hs

/-- The published runtime is routable at every statement of a reload. -/
lemma Consistent.routable {slots : Pool String (Governed.State ρ)} {config : RuntimeConfig}
    {stage : Stage} (h : Consistent slots config stage) : Routable slots config := by
  cases stage with
  | idle | published | remembered => exact Serves.routable h
  | ensuring job todo => exact h.1
  | installing job built outcome todo => exact h.1

/-! ## A server with one model -/

/-- An environment with one upstream key and two inbound tokens. -/
def soloPlatform : Platform where
  env name :=
    if name = "UPSTREAM_KEY" then some "sk-upstream"
    else if name = "INBOUND_A" then some "token-a"
    else if name = "INBOUND_B" then some "token-b"
    else none
  urlScheme _ := .ok "https"
  toLowercase s := String.ofList (s.toList.map Char.toLower)
  displayPrice _ := ""

/-- A document with one model. -/
def soloDoc (rateLimit : Option RateLimitDoc) (keys : List KeyDoc) : ConfigDoc where
  keys := keys
  models :=
    [{ name := "opus", providerType := .anthropic, baseUrl := "https://a",
       apiKeyEnv := "UPSTREAM_KEY", upstreamId := none, rateLimit, maxConcurrency := none,
       pricePromptPerMtokUsd := none, priceCompletionPerMtokUsd := none }]

def soloModel (rateLimit : Option RateLimit) : ModelConfig where
  name := "opus"
  providerType := .anthropic
  baseUrl := "https://a"
  apiKeyEnv := "UPSTREAM_KEY"
  stateKey := "anthropic|https://a|UPSTREAM_KEY"
  upstreamId := "opus"
  rateLimit := rateLimit
  maxConcurrency := none
  pricePromptNanoPerMtok := none
  priceCompletionNanoPerMtok := none

def soloConfig (rateLimit : Option RateLimit) (keys : List KeyConfig) : RuntimeConfig where
  server := Validate.serverConfig {}
  keys := keys
  models := (∅ : Table String ModelConfig).insert "opus" (soloModel rateLimit)
  recipes := ∅

/-- A file that holds a document. -/
def soloWorld (doc : ConfigDoc) : World where
  readToString _ := .ok ""
  fromStr _ := .ok doc
  platform := soloPlatform

/-- A file that has been deleted. -/
def lostWorld : World where
  readToString _ := .error "No such file or directory"
  fromStr _ := .error "unexpected end of stream"
  platform := soloPlatform

/-- Every call is a chat that is not retried. -/
def soloCalls (_slot _call : ℕ) : Governed.Call where
  method := .chat
  retry := { enabled := false, maxRetries := 0, backoffMs := 0 }

lemma validate_solo : validate soloPlatform (soloDoc none []) = .ok (soloConfig none []) := rfl

lemma validate_solo_limited :
    validate soloPlatform (soloDoc (some { rps := 5, burst := none }) []) =
      .ok (soloConfig (some { rps := 5, burst := 5 }) []) := rfl

lemma rows_solo (rateLimit : Option RateLimit) (keys : List KeyConfig) :
    Table.rows (soloConfig rateLimit keys).models = [soloModel rateLimit] := rfl

/-! ## All or nothing -/

/-- Ensuring the slots of a validated configuration serves it, whatever was there before. -/
lemma serves_ensureForConfig {P : Platform} {config : RuntimeConfig} (hvalid : Validated P config)
    (stateful : StatefulState ρ) :
    Serves (stateful.ensureForConfig config).perUpstream config := by
  show Serves ((Table.rows config.models).foldl _ _) config
  rw [StatefulState.foldl_ensureModel]
  exact serves_ensureAll hvalid

/-- Once the slots of a validated configuration are ensured, its providers are built. -/
lemma build_ensured_isOk {P : Platform} {config : RuntimeConfig} (hvalid : Validated P config)
    (env : String → Option String) (stateful : StatefulState ρ)
    (prev : Option (Table String BuiltProvider)) (next : ℕ) :
    ∃ built, buildProvidersWith env config (stateful.ensureForConfig config) prev next =
      .ok built :=
  buildProvidersWith_isOk fun m hm => (serves_ensureForConfig hvalid stateful m hm).isSome

lemma apply_isOk {P : Platform} {new : RuntimeConfig} (hvalid : Validated P new)
    (env : String → Option String) (r : ConfigReloader ρ) :
    ∃ outcome, (r.apply env new).1 = .ok outcome := by
  obtain ⟨built, hbuilt⟩ :=
    build_ensured_isOk hvalid env r.stateful (some r.lastBuilt) r.nextSerial
  rw [ConfigReloader.apply_ok hbuilt]
  exact ⟨_, rfl⟩

lemma startup_isOk {P : Platform} {config : RuntimeConfig} (hvalid : Validated P config)
    (env : String → Option String) (path : String) :
    ∃ r : ConfigReloader ρ, ConfigReloader.startup env config path = .ok r := by
  have hserves : Serves (StatefulState.fromConfig config : StatefulState ρ).perUpstream config :=
    serves_ensureForConfig hvalid _
  have hbuild : ∃ built, buildProvidersWith env config
      (StatefulState.fromConfig config : StatefulState ρ) none 0 = .ok built :=
    buildProvidersWith_isOk fun m hm => (hserves m hm).isSome
  obtain ⟨built, hbuilt⟩ := hbuild
  simp only [ConfigReloader.startup, hbuilt]
  exact ⟨_, rfl⟩

lemma exists_started {P : Platform} {config : RuntimeConfig} (hvalid : Validated P config)
    (path : String) :
    ∃ s : System ρ, ConfigReloader.startup P.env config path = .ok s.core ∧ s.stage = .idle ∧
      s.result = none ∧ s.config = config := by
  obtain ⟨r, hr⟩ := startup_isOk (ρ := ρ) hvalid P.env path
  refine ⟨{ core := r, stage := .idle, result := none }, hr, rfl, rfl, ?_⟩
  obtain ⟨built, -, hs⟩ := startup_ok hr
  show r.runtime.config = config
  rw [hs]
  rfl

/-- The step `a` is the one at which a reload returns `res`. -/
def Returns (calls : ℕ → ℕ → Governed.Call) (s : System ρ) (a : Action ρ) (t : System ρ)
    (res : Except ReloadError ReloadOutcome) : Prop :=
  (machine calls).step s a = some t ∧ (a = .advance ∨ ∃ w, a = .reload w) ∧ t.stage = .idle ∧
    t.result = some res

/-- A reload that fails interleaved with traffic fails at its first statement. -/
lemma Returns.of_error {e : ReloadError} (hs : Consistent s.slots s.config s.stage)
    (h : Returns calls s a t (.error e)) : s.stage = .idle ∧ t.core = s.core := by
  obtain ⟨hstep, hact, hidle, hres⟩ := h
  cases moves_of_step hstep with
  | reject hs' hread => exact ⟨hs', rfl⟩
  | start hs' hread => cases hidle
  | ensure hstage => cases hidle
  | @build job hstage =>
      obtain ⟨built, hbuilt⟩ := Consistent.build_isOk hstage hs
      rw [System.build_ok hbuilt] at hidle
      cases hidle
  | install hstage => cases hidle
  | publish hstage => cases hidle
  | remember hstage => cases hidle
  | finish hstage => cases hres
  | collect | upstream | request =>
      rcases hact with hact | ⟨w, hact⟩ <;> cases hact

/-- A reload is all or nothing.  In every reachable state: a reload that fails leaves the
published runtime, the slots, the buckets, the previous build and the pending collections as
they were; applying a validated configuration succeeds; a reload that runs interleaved with
traffic can fail only at the step that reads the file, which changes nothing; and the
fail-closed branch of the build is never taken. -/
theorem all_or_nothing (h : (machine calls).Reachable Started s) :
    (∀ w e, (s.core.reload w).1 = .error e → (s.core.reload w).2 = s.core) ∧
    (∀ P env new, Validated P new → ∃ outcome, (s.core.apply env new).1 = .ok outcome) ∧
    (∀ a t e, Returns calls s a t (.error e) → s.stage = .idle ∧ t.core = s.core) ∧
    ∀ job, s.stage = .ensuring job [] →
      ∃ built, buildProvidersWith job.env job.new s.core.stateful (some s.core.lastBuilt)
        s.core.nextSerial = .ok built := by
  have hs := consistent_of_reachable h
  refine ⟨?_, ?_, ?_, ?_⟩
  · intro w e herr
    unfold ConfigReloader.reload at herr ⊢
    cases hread : readConfig w s.core.configPath with
    | error e' => rfl
    | ok new =>
        rw [hread] at herr
        obtain ⟨outcome, hok⟩ :=
          apply_isOk (validated_of_readConfig hread) w.platform.env s.core
        rw [hok] at herr
        cases herr
  · intro P env new hvalid
    exact apply_isOk hvalid env s.core
  · intro a t e hret
    exact hret.of_error hs
  · intro job hstage
    exact Consistent.build_isOk hstage hs

/-- A deleted file leaves a running server as it is, and a tighter limit can be applied to it. -/
theorem all_or_nothing_deleted :
    ∃ s : System Unit, s.config = soloConfig none [] ∧ (s.core.reload lostWorld).2 = s.core ∧
      ∃ outcome, (s.core.apply soloPlatform.env
        (soloConfig (some { rps := 5, burst := 5 }) [])).1 = .ok outcome := by
  obtain ⟨s, hcore, hidle, hresult, hconfig⟩ :=
    exists_started (ρ := Unit) ⟨_, validate_solo⟩ "moaray.yaml"
  have hstart : Started s := ⟨soloPlatform, _, _, ⟨_, validate_solo⟩, hcore, hidle, hresult⟩
  have hreach : (machine soloCalls).Reachable Started s := ⟨s, [], hstart, rfl⟩
  obtain ⟨hfail, happly, -, -⟩ := all_or_nothing hreach
  exact ⟨s, hconfig, hfail lostWorld _ rfl, happly soloPlatform _ _ ⟨_, validate_solo_limited⟩⟩

/-! ## Builds -/

/-- The inputs of the providers of a configuration. -/
def providerInputs (env : String → Option String) (config : RuntimeConfig) :
    Set ProviderInputs :=
  {i | ∃ m ∈ Table.rows config.models,
    i = ProviderInputs.of m ((env m.apiKeyEnv).getD "") config.server}

/-- A build of a configuration: a provider for each of its models and for nothing else, signed
with inputs of `S`. -/
structure Signed (S : Set ProviderInputs) (config : RuntimeConfig)
    (built : Table String BuiltProvider) : Prop where
  total : ∀ (name : String) m, config.models[name]? = some m → ∃ b, built[name]? = some b
  signed : ∀ (name : String) b, built[name]? = some b → ∃ m apiKey,
    config.models[name]? = some m ∧ ProviderInputs.of m apiKey config.server ∈ S ∧
      b.signature = providerSignature (ProviderInputs.of m apiKey config.server)

/-- Each provider of a build holds the slot its model is keyed to, so that what a request goes
through is what the table shows. -/
def Bound (slots : Pool String (Governed.State ρ)) (config : RuntimeConfig)
    (built : Table String BuiltProvider) : Prop :=
  ∀ (name : String) m b, config.models[name]? = some m → built[name]? = some b →
    slots.lookup m.stateKey = some b.ref.provider.state

/-- While the slots of `new` are ensured, a provider of the old build still holds the slot its
model is keyed to, unless `new` asks for another governance there. -/
def Reusable (slots : Pool String (Governed.State ρ)) (config new : RuntimeConfig)
    (built : Table String BuiltProvider) : Prop :=
  ∀ (name : String) m b, config.models[name]? = some m → built[name]? = some b →
    (Served slots config m ∧ slots.lookup m.stateKey = some b.ref.provider.state) ∨
    ∃ m' ∈ Table.rows new.models, m'.stateKey = m.stateKey ∧
      UpstreamGovernance.of m' new.server.breaker ≠ UpstreamGovernance.of m config.server.breaker

section Builds

variable {S : Set ProviderInputs} {env : String → Option String} {config new : RuntimeConfig}
  {stateful : StatefulState ρ} {prev : Option (Table String BuiltProvider)} {next : ℕ}
  {build : Build}

/-- What a build produces is signed with the inputs of its configuration. -/
lemma signed_of_build (hbuild : buildProvidersWith env config stateful prev next = .ok build)
    (hS : providerInputs env config ⊆ S) : Signed S config build.providers where
  total name m hm := by
    obtain ⟨b, hb, -⟩ := buildProvidersWith_ok hbuild hm
    exact ⟨b, hb⟩
  signed name b hb := by
    obtain ⟨m, hm⟩ := buildProvidersWith_only hbuild hb
    obtain ⟨b', hb', hsig, -⟩ := buildProvidersWith_ok hbuild hm
    obtain rfl : b = b' := by simpa [hb] using hb'
    exact ⟨m, _, hm, hS ⟨m, Table.mem_rows.2 ⟨name, hm⟩, rfl⟩, hsig⟩

/-- With nothing to reuse, every provider is bound to the slot the build looked up. -/
lemma bound_of_first_build
    (hbuild : buildProvidersWith env config stateful none next = .ok build) :
    Bound stateful.perUpstream config build.providers := by
  intro name m b hm hb
  obtain ⟨b', hb', -, hfrom⟩ := buildProvidersWith_ok hbuild hm
  obtain rfl : b = b' := by simpa [hb] using hb'
  rcases hfrom with ⟨p, hp, -⟩ | ⟨hslot, -, -⟩
  · cases hp
  · exact hslot

/-- A provider that is reused holds the right slot: its signature fixes the upstream identity
and the governance, and a slot whose governance is asked for again has been preserved. -/
lemma bound_of_build (hinj : S.InjOn providerSignature) {P : Platform} (hvalid : Validated P new)
    {last : Table String BuiltProvider}
    (hbuild : buildProvidersWith env new stateful (some last) next = .ok build)
    (hS : providerInputs env new ⊆ S) (hsigned : Signed S config last)
    (hreuse : Reusable stateful.perUpstream config new last) :
    Bound stateful.perUpstream new build.providers := by
  intro name m b hm hb
  obtain ⟨b', hb', hsig, hfrom⟩ := buildProvidersWith_ok hbuild hm
  obtain rfl : b = b' := by simpa [hb] using hb'
  have hrow : m ∈ Table.rows new.models := Table.mem_rows.2 ⟨name, hm⟩
  rcases hfrom with ⟨p, hp, hlast⟩ | ⟨hslot, -, -⟩
  · obtain rfl : last = p := by simpa using hp
    obtain ⟨m₀, apiKey, hm₀, hin₀, hsig₀⟩ := hsigned.signed name b hlast
    have hin : ProviderInputs.of m ((env m.apiKeyEnv).getD "") new.server ∈ S :=
      hS ⟨m, hrow, rfl⟩
    have hinputs := hinj hin₀ hin (hsig₀.symm.trans hsig)
    have hkey : m₀.stateKey = m.stateKey := congrArg ProviderInputs.stateKey hinputs
    have hgov : UpstreamGovernance.of m₀ config.server.breaker =
        UpstreamGovernance.of m new.server.breaker := congrArg ProviderInputs.governance hinputs
    rcases hreuse name m₀ b hm₀ hlast with ⟨-, hlookup⟩ | ⟨m', hm', hkey', hne⟩
    · rw [← hkey]
      exact hlookup
    · refine absurd ?_ hne
      rw [hgov]
      exact StatefulState.of_eq_of_stateKey hvalid hm' hrow (hkey'.trans hkey) _
  · exact hslot

/-- Ensuring one more model keeps the old build reusable. -/
lemma Reusable.ensure {slots : Pool String (Governed.State ρ)} {built : Table String BuiltProvider}
    {m : ModelConfig} (hm : m ∈ Table.rows new.models) (h : Reusable slots config new built) :
    Reusable (slots.ensure governanceOf freshSlot m.stateKey
      (UpstreamGovernance.of m new.server.breaker)) config new built := by
  intro name m₀ b hm₀ hb
  rcases h name m₀ b hm₀ hb with ⟨hserved, hlookup⟩ | hother
  · by_cases hkey : m.stateKey = m₀.stateKey
    · by_cases hgov : UpstreamGovernance.of m new.server.breaker =
          UpstreamGovernance.of m₀ config.server.breaker
      · rw [hkey, hgov, Pool.ensure_of_meets hserved]
        exact .inl ⟨hserved, hlookup⟩
      · exact .inr ⟨m, hm, hkey, hgov⟩
    · have hne := Pool.lookup_ensure_ne governanceOf freshSlot slots
        (UpstreamGovernance.of m new.server.breaker) hkey
      exact .inl ⟨Pool.Meets.mono Pool.cells_prefix_ensure hne hserved, hne.trans hlookup⟩
  · exact .inr hother

end Builds

/-! ## The invariant of the builds -/

/-- How the remembered build, the published providers and the slots relate at every statement
of a reload. -/
def Built (S : Set ProviderInputs) (core : ConfigReloader ρ) : Stage → Prop
  | .idle | .remembered _ _ =>
      Signed S core.runtime.config core.lastBuilt ∧
        Bound core.stateful.perUpstream core.runtime.config core.lastBuilt ∧
        core.runtime.providers = core.lastBuilt.map fun _ b => b.ref
  | .ensuring job _ =>
      Signed S core.runtime.config core.lastBuilt ∧
        Reusable core.stateful.perUpstream core.runtime.config job.new core.lastBuilt ∧
        providerInputs job.env job.new ⊆ S
  | .installing job built _ _ =>
      Signed S job.new built ∧ Bound core.stateful.perUpstream job.new built
  | .published _ built _ =>
      Signed S core.runtime.config built ∧
        Bound core.stateful.perUpstream core.runtime.config built ∧
        core.runtime.providers = built.map fun _ b => b.ref

/-- Traffic and requests do not touch what the builds rest on. -/
lemma Built.of_lookup {S : Set ProviderInputs} {core core' : ConfigReloader ρ} {stage : Stage}
    (h : Built S core stage) (hruntime : core'.runtime = core.runtime)
    (hlast : core'.lastBuilt = core.lastBuilt)
    (hlookup : ∀ k, core'.stateful.perUpstream.lookup k = core.stateful.perUpstream.lookup k)
    (hserved : ∀ config m, Served core.stateful.perUpstream config m →
      Served core'.stateful.perUpstream config m) : Built S core' stage := by
  have hbound : ∀ config built, Bound core.stateful.perUpstream config built →
      Bound core'.stateful.perUpstream config built :=
    fun config built hb name m b hm hbuilt => (hlookup _).trans (hb name m b hm hbuilt)
  cases stage with
  | idle | remembered =>
      obtain ⟨hsigned, hb, hproviders⟩ := h
      simp only [Built, hruntime, hlast]
      exact ⟨hsigned, hbound _ _ hb, hproviders⟩
  | ensuring job todo =>
      obtain ⟨hsigned, hreuse, hin⟩ := h
      simp only [Built, hruntime, hlast]
      refine ⟨hsigned, ?_, hin⟩
      intro name m b hm hb
      rcases hreuse name m b hm hb with ⟨hm', hslot⟩ | hother
      · exact .inl ⟨hserved _ _ hm', (hlookup _).trans hslot⟩
      · exact .inr hother
  | installing job built outcome todo =>
      obtain ⟨hsigned, hb⟩ := h
      exact ⟨hsigned, hbound _ _ hb⟩
  | published job built outcome =>
      obtain ⟨hsigned, hb, hproviders⟩ := h
      simp only [Built, hruntime]
      exact ⟨hsigned, hbound _ _ hb, hproviders⟩

/-- A reload started by the action reads inputs of `S` only. -/
def ReadsWithin (S : Set ProviderInputs) (path : String) (a : Action ρ) : Prop :=
  ∀ w new, a = .reload w → readConfig w path = .ok new → providerInputs w.platform.env new ⊆ S

lemma configPath_build (s : System ρ) (job : Job) :
    (s.build job).core.configPath = s.core.configPath := by
  unfold System.build
  split <;> rfl

/-- The path of the configuration file never changes. -/
lemma configPath_step (h : Moves calls s a t) : t.core.configPath = s.core.configPath := by
  cases h with
  | build hs => exact configPath_build s _
  | @request presented answer =>
      rcases s.request_cases presented answer with h | ⟨r, b, -, h⟩ <;> rw [h]
      rfl
  | _ => rfl

/-- Every statement of a reload keeps the builds and the slots together.  The case that matters is
the build itself, which reuses providers of the build before. -/
theorem Built.step {S : Set ProviderInputs} (hinj : S.InjOn providerSignature)
    (h : Moves calls s a t) (hS : ReadsWithin S s.core.configPath a)
    (hcons : Consistent s.slots s.config s.stage) (hs : Built S s.core s.stage) :
    Built S t.core t.stage := by
  cases h with
  | reject hidle hread =>
      rw [hidle] at hs
      exact hs
  | @start w new hidle hread =>
      rw [hidle] at hs hcons
      obtain ⟨hsigned, hbound, -⟩ := hs
      refine ⟨hsigned, ?_, hS w new rfl hread⟩
      intro name m b hm hb
      exact .inl ⟨hcons m (Table.mem_rows.2 ⟨name, hm⟩), hbound name m b hm hb⟩
  | @ensure job m todo hstage =>
      rw [hstage] at hs hcons
      obtain ⟨hsigned, hreuse, hin⟩ := hs
      obtain ⟨-, -, done, hrows, -⟩ := hcons
      have hm : m ∈ Table.rows job.new.models := by simp [hrows]
      exact ⟨hsigned, hreuse.ensure hm, hin⟩
  | @build job hstage =>
      obtain ⟨built, hbuilt⟩ := Consistent.build_isOk hstage hcons
      rw [hstage] at hs hcons
      obtain ⟨hsigned, hreuse, hin⟩ := hs
      obtain ⟨-, ⟨P, hvalid⟩, -⟩ := hcons
      rw [System.build_ok hbuilt]
      exact ⟨signed_of_build hbuilt hin, bound_of_build hinj hvalid hbuilt hin hsigned hreuse⟩
  | publish hstage =>
      rw [hstage] at hs
      obtain ⟨hsigned, hbound⟩ := hs
      exact ⟨⟨hsigned.total, hsigned.signed⟩, hbound, rfl⟩
  | install hstage | remember hstage | finish hstage =>
      rw [hstage] at hs
      exact hs
  | collect hidle hgc =>
      rw [hidle] at hs
      show Built S s.collect.core s.stage
      rw [hidle]
      obtain ⟨hsigned, hbound, hproviders⟩ := hs
      refine ⟨hsigned, ?_, hproviders⟩
      intro name m b hm hb
      rw [← hbound name m b hm hb]
      exact lookup_retain_live (Table.mem_rows.2 ⟨name, hm⟩)
  | @upstream r slot a slot' hr ha =>
      have hserved : ∀ config m, Served s.slots config m →
          Served (s.slots.update r slot') config m := fun _ _ hm => hm.traffic hr ha
      exact hs.of_lookup rfl rfl (fun _ => rfl) hserved
  | @request presented answer =>
      have hcases := s.request_cases presented answer
      generalize s.request presented answer = u at hcases ⊢
      rcases hcases with rfl | ⟨r, b, -, rfl⟩
      · exact hs
      · exact hs.of_lookup rfl rfl (fun _ => rfl) fun _ _ hm => hm

/-- A server that has just started from a validated configuration, with inputs of `S`. -/
def StartedWithin (S : Set ProviderInputs) (s : System ρ) : Prop :=
  ∃ P config path, Validated P config ∧ providerInputs P.env config ⊆ S ∧
    ConfigReloader.startup P.env config path = .ok s.core ∧ s.stage = .idle ∧ s.result = none

variable {S : Set ProviderInputs}

lemma StartedWithin.started (h : StartedWithin S s) : Started s := by
  obtain ⟨P, config, path, hvalid, -, hcore, hidle, hresult⟩ := h
  exact ⟨P, config, path, hvalid, hcore, hidle, hresult⟩

lemma StartedWithin.built (h : StartedWithin S s) : Built S s.core s.stage := by
  obtain ⟨P, config, path, hvalid, hin, hcore, hidle, -⟩ := h
  obtain ⟨built, hbuilt, hs⟩ := startup_ok hcore
  rw [hidle, hs]
  exact ⟨signed_of_build hbuilt hin, bound_of_first_build hbuilt, rfl⟩

/-- In a run that reads inputs of `S` only, the builds and the slots stay together.  `S` is any set
of inputs on which the signature is injective. -/
theorem built_of_run (hinj : S.InjOn providerSignature) (hstart : StartedWithin S s)
    {as : List (Action ρ)} (hrun : (machine calls).run s as = some t)
    (hS : ∀ a ∈ as, ReadsWithin S s.core.configPath a) : Built S t.core t.stage := by
  have hinv : t.core.configPath = s.core.configPath ∧ Consistent t.slots t.config t.stage ∧
      Built S t.core t.stage := by
    refine (machine calls).invariant_of_run_on
      (I := fun u => u.core.configPath = s.core.configPath ∧
        Consistent u.slots u.config u.stage ∧ Built S u.core u.stage)
      (P := ReadsWithin S s.core.configPath) ?_ hS
      ⟨rfl, hstart.started.consistent, hstart.built⟩ hrun
    intro u a v ha hu hstep
    obtain ⟨hpath, hcons, hbuilt⟩ := hu
    have hmoves := moves_of_step hstep
    rw [← hpath] at ha
    exact ⟨(configPath_step hmoves).trans hpath, hcons.step hmoves,
      hbuilt.step hinj hmoves ha hcons⟩
  exact hinv.2.2

/-! ## What holds of every slot -/

section Everywhere

variable {I : Governed.State ρ → Prop}

lemma Started.forall_deref (hfresh : ∀ g, I (freshSlot g)) (h : Started s) :
    ∀ r slot, s.slots.deref r = some slot → I slot := by
  obtain ⟨P, config, path, -, hcore, -⟩ := h
  obtain ⟨built, -, hs⟩ := startup_ok hcore
  show ∀ r slot, s.core.stateful.perUpstream.deref r = some slot → I slot
  rw [hs, slots_fromConfig]
  refine Pool.forall_deref_ensureAll ?_ hfresh
  intro r slot hr
  simp [Pool.deref, Pool.empty] at hr

/-- What holds of fresh slots and is kept by their traffic is kept by every step. -/
lemma Moves.forall_deref (hfresh : ∀ g, I (freshSlot g))
    (htraffic : ∀ r slot b slot', I slot → (Governed.machine (calls r)).step slot b = some slot' →
      I slot') (h : Moves calls s a t) (hs : ∀ r slot, s.slots.deref r = some slot → I slot) :
    ∀ r slot, t.slots.deref r = some slot → I slot := by
  cases h with
  | ensure hstage => exact Pool.forall_deref_ensure hs (hfresh _)
  | build hstage =>
      rw [System.slots_build]
      exact hs
  | @upstream r slot b slot' hr hb =>
      exact Pool.forall_deref_update _ _ _ hs (htraffic r slot b slot' (hs r slot hr) hb)
  | request =>
      rw [System.slots_request]
      exact hs
  | _ => exact hs

/-- What a fresh slot has and traffic preserves holds of every slot in every reachable state, those
that serve nobody any more included. -/
theorem forall_deref_of_reachable (hfresh : ∀ g, I (freshSlot g))
    (htraffic : ∀ r slot b slot', I slot → (Governed.machine (calls r)).step slot b = some slot' →
      I slot') (h : (machine calls).Reachable Started s) :
    ∀ r slot, s.slots.deref r = some slot → I slot :=
  h.invariant (I := fun s => ∀ r slot, s.slots.deref r = some slot → I slot)
    (fun _ hs => hs.forall_deref hfresh)
    fun _ _ _ hs hstep => (moves_of_step hstep).forall_deref hfresh htraffic hs

end Everywhere

/-! ## Slots enforce what they were built for -/

/-- The bucket and the breaker of every slot are those its governance asks for. -/
def Enforced (slots : Pool String (Governed.State ρ)) : Prop :=
  ∀ r slot, slots.deref r = some slot → slot.upstream.Enforces

theorem enforced_of_reachable (h : (machine calls).Reachable Started s) : Enforced s.slots :=
  forall_deref_of_reachable (I := fun slot => slot.upstream.Enforces) enforces_freshSlot
    (fun _ _ _ _ hslot hstep => Governed.enforces_step hstep hslot) h

/-! ## Coherence -/

/-- The published providers, the slots and the published settings agree: every model is routed to a
provider of its current inputs, which holds the slot of its identity. -/
structure Coherent (s : System ρ) : Prop where
  /-- Each model's provider is bound to the very slot the map holds for its state key, and that
  slot was built for the published settings and enforces them. -/
  bound : ∀ (name : String) m, s.config.models[name]? = some m →
    ∃ ref slot, s.core.runtime.providers[name]? = some ref ∧
      s.core.stateful.upstream m.stateKey = some ref.provider.state ∧
      s.slots.deref ref.provider.state = some slot ∧
      governanceOf slot = UpstreamGovernance.of m s.config.server.breaker ∧
      slot.upstream.Enforces
  /-- Models of one state key share one slot. -/
  shared : ∀ (name name' : String) m m' ref ref', s.config.models[name]? = some m →
    s.config.models[name']? = some m' → m.stateKey = m'.stateKey →
    s.core.runtime.providers[name]? = some ref → s.core.runtime.providers[name']? = some ref' →
    ref.provider.state = ref'.provider.state

/-- Between reloads, coherence follows from the two invariants. -/
lemma coherent_of_idle (hidle : s.stage = .idle) (hcons : Consistent s.slots s.config s.stage)
    (hbuilt : Built S s.core s.stage) (henf : Enforced s.slots) : Coherent s := by
  rw [hidle] at hcons hbuilt
  obtain ⟨hsigned, hbound, hproviders⟩ := hbuilt
  have hlookup : ∀ (name : String) m ref, s.config.models[name]? = some m →
      s.core.runtime.providers[name]? = some ref →
      s.slots.lookup m.stateKey = some ref.provider.state := by
    intro name m ref hm href
    rw [hproviders, Std.ExtTreeMap.getElem?_map] at href
    obtain ⟨b, hb, rfl⟩ := Option.map_eq_some_iff.1 href
    exact hbound name m b hm hb
  refine ⟨?_, ?_⟩
  · intro name m hm
    obtain ⟨b, hb⟩ := hsigned.total name m hm
    have href : s.core.runtime.providers[name]? = some b.ref := by
      rw [hproviders, Std.ExtTreeMap.getElem?_map, hb]
      rfl
    have hslot := hlookup name m b.ref hm href
    obtain ⟨r, slot, hr, hderef, hgov⟩ := hcons m (Table.mem_rows.2 ⟨name, hm⟩)
    obtain rfl : r = b.ref.provider.state := by
      rw [hslot] at hr
      exact (Option.some.inj hr).symm
    exact ⟨b.ref, slot, href, hslot, hderef, hgov, henf _ slot hderef⟩
  · intro name name' m m' ref ref' hm hm' hkey href href'
    have h₁ := hlookup name m ref hm href
    have h₂ := hlookup name' m' ref' hm' href'
    rw [hkey, h₂] at h₁
    exact (Option.some.inj h₁).symm

/-- A routable upstream always has its slot, and reloads keep providers and slots coherent.  In
every state of every run, between the statements of a reload too, each model of the published
runtime has a slot under its state key.  If the reuse signature tells the inputs of a run apart,
then whenever no reload is running the published providers, the slots and the published
settings agree. -/
theorem routable_coherent :
    (∀ (s : System ρ) as t, Started s → (machine calls).run s as = some t →
      Routable t.slots t.config) ∧
    ∀ S : Set ProviderInputs, S.InjOn providerSignature → ∀ (s : System ρ) as t,
      StartedWithin S s → (machine calls).run s as = some t →
      (∀ a ∈ as, ReadsWithin S s.core.configPath a) → t.stage = .idle → Coherent t := by
  refine ⟨?_, ?_⟩
  · intro s as t hs hrun
    exact (consistent_of_reachable ⟨s, as, hs, hrun⟩).routable
  · intro S hinj s as t hs hrun hS hidle
    have hreach : (machine calls).Reachable Started t := ⟨s, as, hs.started, hrun⟩
    exact coherent_of_idle hidle (consistent_of_reachable hreach) (built_of_run hinj hs hrun hS)
      (enforced_of_reachable hreach)

/-- The provider inputs of the one-model server. -/
def soloInputs (rateLimit : Option RateLimit) : ProviderInputs :=
  ProviderInputs.of (soloModel rateLimit) "sk-upstream" (Validate.serverConfig {})

lemma providerInputs_solo (rateLimit : Option RateLimit) (keys : List KeyConfig) :
    providerInputs soloPlatform.env (soloConfig rateLimit keys) = {soloInputs rateLimit} := by
  ext i
  simp only [providerInputs, rows_solo, List.mem_singleton, Set.mem_ofPred_eq, exists_eq_left,
    Set.mem_singleton_iff]
  rfl

/-- A server whose upstream gets a rate limit by a reload: the published provider is bound to
the new slot, which enforces the limit. -/
theorem routable_coherent_limited :
    ∃ (s t : System Unit) (n : ℕ), s.config = soloConfig none [] ∧
      (machine soloCalls).run s
          (.reload (soloWorld (soloDoc (some { rps := 5, burst := none }) [])) ::
            List.replicate n .advance) = some t ∧
      Routable t.slots t.config ∧ Coherent t ∧
      t.config.models = (soloConfig (some { rps := 5, burst := 5 }) []).models := by
  obtain ⟨s, hcore, hidle, hresult, hconfig⟩ :=
    exists_started (ρ := Unit) ⟨_, validate_solo⟩ "moaray.yaml"
  let w := soloWorld (soloDoc (some { rps := 5, burst := none }) [])
  let new := soloConfig (some { rps := 5, burst := 5 }) []
  have hread : ∀ path, readConfig w path = .ok new := fun _ => rfl
  obtain ⟨n, hrun⟩ := run_apply soloCalls hidle (hread s.core.configPath)
  let S : Set ProviderInputs := {soloInputs none, soloInputs (some { rps := 5, burst := 5 })}
  have hne : providerSignature (soloInputs none) ≠
      providerSignature (soloInputs (some { rps := 5, burst := 5 })) := by decide +kernel
  have hinj : S.InjOn providerSignature := by
    rintro i (rfl | rfl) j (rfl | rfl) hij
    · rfl
    · exact absurd hij hne
    · exact absurd hij.symm hne
    · rfl
  have hstart : StartedWithin S s := by
    refine ⟨soloPlatform, _, _, ⟨_, validate_solo⟩, ?_, hcore, hidle, hresult⟩
    rw [providerInputs_solo]
    exact Set.singleton_subset_iff.2 (.inl rfl)
  have hS : ∀ a ∈ Action.reload w :: List.replicate n (Action.advance : Action Unit),
      ReadsWithin S s.core.configPath a := by
    rintro a ha w' new' rfl hread'
    have hw : w' = w := by simpa [List.mem_replicate] using ha
    have hnew : new = new' := by simpa [hw, hread] using hread'
    rw [hw, ← hnew, show providerInputs w.platform.env new = _ from providerInputs_solo _ _]
    exact Set.singleton_subset_iff.2 (.inr rfl)
  refine ⟨s, _, n, hconfig, hrun, ?_, ?_, ?_⟩
  · exact routable_coherent.1 s _ _ hstart.started hrun
  · exact routable_coherent.2 S hinj s _ _ hstart hrun hS rfl
  · obtain ⟨built, hbuilt⟩ := build_ensured_isOk ⟨_, validate_solo_limited⟩ w.platform.env
      s.core.stateful (some s.core.lastBuilt) s.core.nextSerial
    show (s.core.apply w.platform.env new).2.runtime.config.models = _
    rw [ConfigReloader.apply_ok hbuilt]
    rfl

end Reload

end Moaray
