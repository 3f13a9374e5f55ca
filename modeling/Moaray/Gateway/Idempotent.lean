import Moaray.Gateway.KeyLimits

/-!
# Reloading what is running changes nothing

A reload that reads the configuration that is published, with the same keys in the environment,
keeps every slot, every provider and every bucket, and schedules no collection.  The buckets are
kept only as long as the entries of one id that are limited are limited alike.

* `SignedBy` — a build, with the environment whose keys it was made with.
* `rebuild_eq` — a build whose keys have not changed is built again as it is.
* `environment` — the environment of the published build, along a run.
* `Remembers` — what is published is made of the remembered build; `remembers_of_run`.
* `reload_again` — a reload of what is running.

Each of the three parts has its reason.  The slots are left alone because the published
configuration is served (`Consistent`); the providers because their signatures are those of the
remembered build, in the environment of the reload that made it; and the buckets because each entry
finds one of its own limit, unless a second entry of its id has put another one there.

**Design.**  A provider's signature contains the key it was built with, so whether it is reused
depends on the environment then and now.  The environment of the published build is no part of the
state; it is a record kept along the run, as the states in between do not show it.
-/

namespace Moaray

open Framework

variable {ρ : Type}

/-! ## Builds of an environment -/

/-- The reuse signature of a model in an environment. -/
def signatureIn (env : String → Option String) (server : ServerConfig) (m : ModelConfig) : String :=
  providerSignature (ProviderInputs.of m ((env m.apiKeyEnv).getD "") server)

/-- A build of a configuration, made with the keys of an environment: a provider for each model,
under the signature it has there. -/
structure SignedBy (env : String → Option String) (config : RuntimeConfig)
    (built : Table String BuiltProvider) : Prop where
  signed : ∀ (name : String) m, config.models[name]? = some m →
    ∃ b, built[name]? = some b ∧ b.signature = signatureIn env config.server m
  only : ∀ (name : String) b, built[name]? = some b → ∃ m, config.models[name]? = some m

section Builds

variable {env env' : String → Option String} {config : RuntimeConfig} {stateful : StatefulState ρ}
  {prev : Option (Table String BuiltProvider)} {next : ℕ} {build : Build}

lemma signedBy_of_build (h : buildProvidersWith env config stateful prev next = .ok build) :
    SignedBy env config build.providers where
  signed name m hm := by
    obtain ⟨b, hb, hsig, -⟩ := buildProvidersWith_ok h hm
    exact ⟨b, hb, hsig⟩
  only _ _ hb := buildProvidersWith_only h hb

lemma next_of_reusable {rows : List (String × ModelConfig)} {acc acc' : Build}
    (hreuse : ∀ row ∈ rows,
      (reusable prev row.1 (signatureIn env config.server row.2)).isSome)
    (h : rows.foldlM (buildModel env config.server stateful prev) acc = .ok acc') :
    acc'.next = acc.next := by
  induction rows generalizing acc with
  | nil =>
      obtain rfl : acc = acc' := pure_eq_ok.1 h
      rfl
  | cons row rows ih =>
      rw [List.foldlM_cons, bind_eq_ok] at h
      obtain ⟨mid, hmid, hrest⟩ := h
      have hone : mid.next = acc.next := by
        obtain ⟨b, hb⟩ := Option.isSome_iff_exists.1 (hreuse row (List.mem_cons_self ..))
        unfold signatureIn at hb
        unfold buildModel at hmid
        simp only [hb, Except.ok.injEq] at hmid
        rw [← hmid]
      rw [ih (fun r hr => hreuse r (List.mem_cons_of_mem _ hr)) hrest, hone]

/-- A build whose keys have not changed is built again as it is: every model finds its signature in
the build before and takes the provider from there. -/
theorem rebuild_eq {last : Table String BuiltProvider} (hsigned : SignedBy env config last)
    (henv : ∀ m ∈ Table.rows config.models,
      (env' m.apiKeyEnv).getD "" = (env m.apiKeyEnv).getD "")
    (h : buildProvidersWith env' config stateful (some last) next = .ok build) :
    build = { providers := last, next } := by
  have hreuse : ∀ (name : String) m, config.models[name]? = some m →
      ∃ b, last[name]? = some b ∧
        reusable (some last) name (signatureIn env' config.server m) = some b := by
    intro name m hm
    obtain ⟨b, hb, hsig⟩ := hsigned.signed name m hm
    refine ⟨b, hb, ?_⟩
    unfold reusable signatureIn
    rw [henv m (Table.mem_rows.2 ⟨name, hm⟩), Option.bind_some, hb,
      Option.filter_eq_some_iff]
    exact ⟨rfl, by simpa [signatureIn] using hsig⟩
  have hproviders : build.providers = last := by
    refine Std.ExtTreeMap.ext_getElem? fun name => ?_
    cases hm : config.models[name]? with
    | some m =>
        obtain ⟨b, hb, hb'⟩ := hreuse name m hm
        rw [hb, buildProvidersWith_reuses h hm hb']
    | none =>
        have hnone : ∀ built : Table String BuiltProvider,
            (∀ (name : String) b, built[name]? = some b → ∃ m, config.models[name]? = some m) →
              built[name]? = none := by
          intro built honly
          by_contra hsome
          obtain ⟨b, hb⟩ := Option.ne_none_iff_exists'.1 hsome
          obtain ⟨m, hm'⟩ := honly name b hb
          rw [hm] at hm'
          cases hm'
        rw [hnone last hsigned.only, hnone build.providers fun _ _ => buildProvidersWith_only h]
  have hnext : build.next = next := by
    refine next_of_reusable (fun row hrow => ?_) h
    obtain ⟨b, -, hb⟩ := hreuse row.1 row.2 (Table.mem_toList.1 hrow)
    rw [hb]
    rfl
  cases build
  simp only at hproviders hnext
  rw [hproviders, hnext]

lemma countReused_self (built : Table String BuiltProvider) :
    countReused built built = built.size := by
  unfold countReused
  rw [← Std.ExtTreeMap.length_toList, List.countP_eq_length]
  rintro ⟨name, b⟩ hrow
  rw [Table.mem_toList.1 hrow]
  simp

end Builds

namespace Reload

variable {calls : ℕ → ℕ → Governed.Call} {s t : System ρ} {a : Action ρ}
  {env : String → Option String}

/-! ## What is published -/

/-- The environment of the published build: the statement that publishes brings its own. -/
def environmentOf (env : String → Option String) (s : System ρ) (a : Action ρ) :
    String → Option String :=
  match a, s.stage with
  | .advance, .installing job _ _ [] => job.env
  | _, _ => env

/-- The environment of the published build at the end of a run. -/
def environment (calls : ℕ → ℕ → Governed.Call) (env : String → Option String) (s : System ρ)
    (as : List (Action ρ)) : String → Option String :=
  (machine calls).ghost (fun env u a _ => environmentOf env u a) env s as

/-- What is published is made of a build, which was made with the keys of an environment.  The
environment may be an earlier one. -/
structure MadeOf (env : String → Option String) (rt : Runtime)
    (built : Table String BuiltProvider) : Prop where
  signed : SignedBy env rt.config built
  runtime : rt = runtimeOf rt.config rt.config built

/-- What is published is made of the remembered build, or of the one about to be remembered. -/
def Remembers (env : String → Option String) (core : ConfigReloader ρ) : Stage → Prop
  | .idle | .ensuring _ _ | .remembered _ _ => MadeOf env core.runtime core.lastBuilt
  | .installing job built _ _ =>
      MadeOf env core.runtime core.lastBuilt ∧ SignedBy job.env job.new built
  | .published _ built _ => MadeOf env core.runtime built

/-- The invariant reads the runtime and the remembered build. -/
lemma Remembers.of_eq {core core' : ConfigReloader ρ} {stage : Stage} (h : Remembers env core stage)
    (hruntime : core'.runtime = core.runtime) (hlast : core'.lastBuilt = core.lastBuilt) :
    Remembers env core' stage := by
  cases stage <;> simp only [Remembers, hruntime, hlast] at h ⊢ <;> exact h

lemma madeOf_publish {job : Job} {built : Table String BuiltProvider}
    (h : SignedBy job.env job.new built) :
    MadeOf job.env (runtimeOf job.new (publishedConfig job.new job.prev) built) built :=
  ⟨⟨h.signed, h.only⟩, rfl⟩

/-- Every statement of a reload keeps what is published with its build.  Between the two statements
that store them the stage remembers what is still to be stored. -/
theorem Remembers.step (h : Moves calls s a t) (hcons : Consistent s.slots s.config s.stage)
    (hs : Remembers env s.core s.stage) : Remembers (environmentOf env s a) t.core t.stage := by
  cases h with
  | reject hstage | start hstage | ensure hstage | remember hstage | finish hstage =>
      simp only [environmentOf, hstage] at hs ⊢
      exact hs
  | collect hstage =>
      show Remembers env s.collect.core s.stage
      exact hs.of_eq rfl rfl
  | @build job hstage =>
      obtain ⟨built, hbuilt⟩ := Consistent.build_isOk hstage hcons
      rw [System.build_ok hbuilt]
      simp only [environmentOf, hstage] at hs ⊢
      exact ⟨hs, signedBy_of_build hbuilt⟩
  | install hstage =>
      simp only [environmentOf, hstage] at hs ⊢
      exact hs
  | publish hstage =>
      simp only [environmentOf, hstage] at hs ⊢
      exact madeOf_publish hs.2
  | upstream hr ha => exact hs
  | @request presented answer =>
      rcases s.request_cases presented answer with heq | ⟨r, b, -, heq⟩ <;> rw [heq]
      · exact hs
      · exact hs.of_eq rfl rfl

/-- A server that has just started, in an environment. -/
def StartedIn (env : String → Option String) (s : System ρ) : Prop :=
  ∃ P config path, P.env = env ∧ Validated P config ∧
    ConfigReloader.startup env config path = .ok s.core ∧ s.stage = .idle ∧ s.result = none

lemma StartedIn.started (h : StartedIn env s) : Started s := by
  obtain ⟨P, config, path, rfl, hvalid, hcore, hidle, hresult⟩ := h
  exact ⟨P, config, path, hvalid, hcore, hidle, hresult⟩

lemma StartedIn.remembers (h : StartedIn env s) : Remembers env s.core s.stage := by
  obtain ⟨P, config, path, -, -, hcore, hidle, -⟩ := h
  obtain ⟨built, hbuilt, hs⟩ := startup_ok hcore
  rw [hidle, hs]
  exact ⟨signedBy_of_build hbuilt, rfl⟩

/-- Along every run, what is published is kept together with its build and the environment of it. -/
theorem remembers_of_run (hstart : StartedIn env s) {as : List (Action ρ)}
    (hrun : (machine calls).run s as = some t) :
    Remembers (environment calls env s as) t.core t.stage := by
  refine Machine.invariant_of_ghost (I := fun env u => Remembers env u.core u.stage) hrun
    hstart.remembers ?_
  intro e pre u b v htakes hremembers
  have hreach : (machine calls).Reachable Started u := ⟨s, pre, hstart.started, htakes.run⟩
  exact Remembers.step (moves_of_step htakes.step) (consistent_of_reachable hreach) hremembers

/-! ## The second reload -/

/-- The limited entries of one id are limited alike. -/
def LimitsAgree (keys : List KeyConfig) : Prop :=
  ∀ k ∈ keys, ∀ k' ∈ keys, k.id = k'.id → ∀ limit limit', k.rateLimit = some limit →
    k'.rateLimit = some limit' → limit = limit'

section Again

variable {config new : RuntimeConfig}

/-- The slots of a served configuration are left alone. -/
lemma ensureForConfig_eq {stateful : StatefulState ρ} (h : Serves stateful.perUpstream new) :
    stateful.ensureForConfig new = stateful := by
  have hslots : (Table.rows new.models).foldl
      (StatefulState.ensureModel new.server.breaker) stateful.perUpstream =
        stateful.perUpstream := by
    rw [StatefulState.foldl_ensureModel]
    refine Pool.ensureAll_of_meets fun i hi => ?_
    obtain ⟨m, hm, rfl⟩ := List.mem_map.1 hi
    exact h m hm
  unfold StatefulState.ensureForConfig
  rw [hslots]

/-- The buckets that installing and reclaiming leave alone. -/
lemma buckets_eq_iff {stateful : StatefulState ρ} {keys : List KeyConfig} (hkeys : new.keys = keys)
    (hinstalled : ∀ k ∈ keys, Installed keys stateful.perKey k)
    (honly : OnlyLimited keys stateful.perKey) :
    ((stateful.installKeyLimiters new).1.retainKeyLimiters new).1.perKey = stateful.perKey ↔
      LimitsAgree keys := by
  let requests := new.keys.filterMap StatefulState.keyRequest
  have hinstall : ((stateful.installKeyLimiters new).1.retainKeyLimiters new).1.perKey =
      (stateful.perKey.ensureAll TokenBucket.limit TokenBucket.new requests).retain
        (StatefulState.liveKey new) :=
    congrArg (Pool.retain · (StatefulState.liveKey new)) (foldl_installKey (stateful.perKey, 0) _)
  rw [hinstall]
  constructor
  · intro heq k hk k' hk' hid limit limit' hlimit hlimit'
    have hcells : (stateful.perKey.ensureAll TokenBucket.limit TokenBucket.new requests).cells =
        stateful.perKey.cells := (congrArg Pool.cells heq :)
    have hmeets := Pool.cells_ensureAll_eq_iff.1 hcells
    have hrequest : ∀ k ∈ keys, ∀ limit, k.rateLimit = some limit →
        Pool.Meets TokenBucket.limit stateful.perKey k.id limit := by
      intro k hk limit hlimit
      refine hmeets (k.id, limit) (List.mem_filterMap.2 ⟨k, hkeys ▸ hk, ?_⟩)
      rw [StatefulState.keyRequest, hlimit, Option.map_some]
    obtain ⟨r, b, hr, hb, hspec⟩ := hrequest k hk limit hlimit
    obtain ⟨r', b', hr', hb', hspec'⟩ := hrequest k' hk' limit' hlimit'
    rw [← hid, hr] at hr'
    obtain rfl := Option.some.inj hr'
    rw [hb] at hb'
    obtain rfl := Option.some.inj hb'
    rw [← hspec, ← hspec']
  · intro hagree
    have hmeets : ∀ i ∈ requests, Pool.Meets TokenBucket.limit stateful.perKey i.1 i.2 := by
      intro i hi
      obtain ⟨k, hk, hki⟩ := List.mem_filterMap.1 hi
      obtain ⟨limit, hlimit, rfl⟩ := Option.map_eq_some_iff.1 hki
      rw [hkeys] at hk
      exact (hinstalled k hk).meets limit hlimit fun k' hk' hid limit' hlimit' =>
        hagree k' hk' k hk hid limit' limit hlimit' hlimit
    rw [Pool.ensureAll_of_meets hmeets]
    refine Pool.retain_of_forall fun id hid => liveKey_iff.2 ?_
    rw [hkeys]
    exact honly id hid

/-- **Reloading what is running changes nothing.**  In every state of every run in which no reload
is running, a reload that reads the configuration that is published (whatever usage store it
names) and finds the same upstream keys keeps every slot, every provider and the snapshot, and
schedules no collection.  It keeps the buckets of the callers exactly when the limited entries of
one id are limited alike. -/
theorem reload_again (hstart : StartedIn env s) {as : List (Action ρ)}
    (hrun : (machine calls).run s as = some t) (hidle : t.stage = .idle) {w : World}
    (hread : readConfig w t.core.configPath = .ok new)
    (hsame : publishedConfig new t.config = t.config)
    (henv : ∀ m ∈ Table.rows new.models,
      (w.platform.env m.apiKeyEnv).getD "" = (environment calls env s as m.apiKeyEnv).getD "") :
    ∃ buckets,
      t.core.reload w =
        (.ok
          { upstreamsAdded := 0
            upstreamsUnchanged := (stateKeys new).card
            upstreamsRemoved := 0
            providersReused := t.core.lastBuilt.size
            providersBuilt := 0 },
          { t.core with stateful := { t.core.stateful with perKey := buckets } }) ∧
        (buckets = t.core.stateful.perKey ↔ LimitsAgree new.keys) := by
  have hreach : (machine calls).Reachable Started t := ⟨s, as, hstart.started, hrun⟩
  have hserves := consistent_of_reachable hreach
  have htracked := tracked_of_reachable hreach
  have hremembers := remembers_of_run hstart hrun
  rw [hidle] at hserves htracked hremembers
  have hmodels : new.models = t.config.models := (congrArg RuntimeConfig.models hsame :)
  have hbreaker : new.server.breaker = t.config.server.breaker :=
    congrArg (fun c => c.server.breaker) hsame
  have hkeys : new.keys = t.config.keys := (congrArg RuntimeConfig.keys hsame :)
  have hslots : t.core.stateful.ensureForConfig new = t.core.stateful := by
    refine ensureForConfig_eq fun m hm => ?_
    rw [hmodels] at hm
    rw [Served, hbreaker]
    exact hserves m hm
  have hsigned : SignedBy (environment calls env s as) new t.core.lastBuilt := by
    have hpublished : SignedBy (environment calls env s as) (publishedConfig new t.config)
        t.core.lastBuilt := hsame.symm ▸ hremembers.signed
    exact ⟨hpublished.signed, hpublished.only⟩
  obtain ⟨build, hbuild⟩ := build_ensured_isOk (validated_of_readConfig hread) w.platform.env
    t.core.stateful (some t.core.lastBuilt) t.core.nextSerial
  obtain rfl := rebuild_eq hsigned henv hbuild
  have hruntime : runtimeOf new (publishedConfig new t.config) t.core.lastBuilt =
      t.core.runtime := by
    rw [show runtimeOf new (publishedConfig new t.config) t.core.lastBuilt =
      runtimeOf (publishedConfig new t.config) (publishedConfig new t.config) t.core.lastBuilt
      from rfl, hsame]
    exact hremembers.runtime.symm
  have hstateKeys : stateKeys t.core.runtime.config = stateKeys new :=
    (congrArg (fun models => ((Table.rows models).map ModelConfig.stateKey).toFinset) hmodels).symm
  have hreload : t.core.reload w = t.core.apply w.platform.env new := by
    simp only [ConfigReloader.reload, hread]
  refine ⟨((t.core.stateful.installKeyLimiters new).1.retainKeyLimiters new).1.perKey, ?_, ?_⟩
  · rw [hreload, ConfigReloader.apply_ok hbuild, hslots, reloadOutcome, hstateKeys,
      countReused_self, show publishedConfig new t.core.runtime.config =
        publishedConfig new t.config from rfl, hruntime]
    simp only [Finset.sdiff_self, Finset.inter_self, Finset.card_empty, spawnGc,
      Nat.lt_irrefl, if_false, Nat.sub_self]
    rfl
  · rw [hkeys]
    exact buckets_eq_iff hkeys htracked.1 htracked.2

/-- Two entries of ids of their own keep their buckets when their file is read once more. -/
theorem reload_again_pair :
    ∃ s : System Unit, s.config = soloConfig none (pairKeys "ops") ∧ ∃ buckets,
      s.core.reload (soloWorld (soloDoc none (pairDocs "ops"))) =
        (.ok
          { upstreamsAdded := 0
            upstreamsUnchanged := (stateKeys (soloConfig none (pairKeys "ops"))).card
            upstreamsRemoved := 0
            providersReused := s.core.lastBuilt.size
            providersBuilt := 0 },
          { s.core with stateful := { s.core.stateful with perKey := buckets } }) ∧
        (buckets = s.core.stateful.perKey ↔ LimitsAgree (pairKeys "ops")) := by
  obtain ⟨s, hcore, hidle, hresult, hconfig⟩ :=
    exists_started (ρ := Unit) ⟨_, validate_pair "ops"⟩ "moaray.yaml"
  have hstart : StartedIn soloPlatform.env s :=
    ⟨soloPlatform, _, _, rfl, ⟨_, validate_pair "ops"⟩, hcore, hidle, hresult⟩
  have hrun : (machine soloCalls).run s [] = some s := rfl
  refine ⟨s, hconfig, ?_⟩
  refine reload_again hstart hrun hidle rfl ?_ fun _ _ => rfl
  rw [hconfig]
  rfl

end Again

end Reload

end Moaray
