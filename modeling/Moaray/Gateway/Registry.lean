import Moaray.Framework.Fallible
import Moaray.Gateway.Stateful
import Moaray.Moa.Recipe
import Moaray.Providers.Anthropic
import Moaray.Providers.OpenAi

/-!
# Registry: from validated models to governed providers

Every model gets a provider wrapped in the governance of its upstream identity's slot.  A provider
is shared by reference, so each one built carries a serial number of its own; a reload reuses the
previous build's provider when the signature of its inputs is unchanged.

* `ProviderInputs`, `providerSignature` — everything a provider depends on, and its signature.
* `buildProvidersWith` — the build, which fails when an upstream identity has no slot.
* `buildProvidersWith_ok` — where every provider of a successful build comes from.
* `buildProvidersWith_reuses`, `buildProvidersWith_only` — what is reused, and that nothing else is
  in the build.
* `buildProvidersWith_isOk` — the build succeeds once every identity has a slot.

A provider is bound to its slot when it is built and keeps it.  So a reused provider goes on with
the slot it had, whether or not the map still leads there, and this is the reason the governance is
part of the signature.

**Design.**  Serial numbers stand for identity of references: two references are to one provider
exactly when their numbers agree.  The build is a loop over the models, and each of the statements
about it is one about adding a model, carried along by `foldlM_buildModel_rows`.
-/

namespace Moaray

open Framework

variable {ρ : Type}

/-- The adapter inside a governed provider, with the key it was built with. -/
inductive InnerProvider
  | openai (p : OpenAiProvider)
  | anthropic (p : AnthropicProvider)
  deriving DecidableEq, Repr

/-- A provider wrapped with the breaker, limiter, semaphore and retry of its slot, which it names by
its position. -/
structure GovernedProvider where
  inner : InnerProvider
  /-- The slot it is bound to. -/
  state : ℕ
  retry : RetryConfig
  deriving DecidableEq, Repr

/-- A shared provider: which one it is, and what it is made of.  References with one serial number
are to one provider. -/
structure ProviderRef where
  serial : ℕ
  provider : GovernedProvider
  deriving DecidableEq, Repr

/-- A built provider with the signature of the inputs that produced it.  The next build compares
signatures, and never inputs. -/
structure BuiltProvider where
  ref : ProviderRef
  signature : String
  deriving DecidableEq, Repr

/-! ## The reuse signature -/

/-- Every input that affects a provider's behaviour; the signature is meant to be a text of all of
them. -/
structure ProviderInputs where
  providerType : ProviderType
  baseUrl : String
  apiKeyEnv : String
  apiKey : String
  stateKey : String
  upstreamId : String
  defaultMaxTokens : UInt32
  retry : RetryConfig
  rateLimit : Option RateLimit
  maxConcurrency : Option UInt32
  breaker : BreakerConfig
  deriving DecidableEq, Repr

/-- The inputs of a model under the server's settings and the resolved key.  The name of the model
is not among them; it is what the reuse table is keyed by. -/
def ProviderInputs.of (m : ModelConfig) (apiKey : String) (server : ServerConfig) :
    ProviderInputs where
  providerType := m.providerType
  baseUrl := m.baseUrl
  apiKeyEnv := m.apiKeyEnv
  apiKey := apiKey
  stateKey := m.stateKey
  upstreamId := m.upstreamId
  defaultMaxTokens := server.defaultMaxTokens
  retry := server.retry
  rateLimit := m.rateLimit
  maxConcurrency := m.maxConcurrency
  breaker := server.breaker

def ProviderInputs.governance (i : ProviderInputs) : UpstreamGovernance where
  rateLimit := i.rateLimit
  maxConcurrency := i.maxConcurrency
  breaker := i.breaker

/-- The `Debug` form of an optional integer. -/
def debugOption : Option UInt32 → String
  | some n => "Some(" ++ toString n.toNat ++ ")"
  | none => "None"

def providerSignature (i : ProviderInputs) : String :=
  let rl := match i.rateLimit with
    | some r => toString r.rps.toNat ++ ":" ++ toString r.burst.toNat
    | none => "none"
  "pt=" ++ i.providerType.debug ++ "|url=" ++ i.baseUrl ++ "|keyenv=" ++ i.apiKeyEnv ++
    "|key=" ++ i.apiKey ++ "|sid=" ++ i.stateKey ++ "|uid=" ++ i.upstreamId ++
    "|dmt=" ++ toString i.defaultMaxTokens.toNat ++
    "|retry=" ++ toString i.retry.enabled ++ ":" ++ toString i.retry.maxRetries.toNat ++ ":" ++
      toString i.retry.backoffMs.toNat ++
    "|rl=" ++ rl ++ "|mc=" ++ debugOption i.maxConcurrency ++
    "|brk=" ++ toString i.breaker.failureThreshold.toNat ++ ":" ++
      toString i.breaker.openMs.toNat ++ ":" ++ toString i.breaker.halfOpenSuccesses.toNat

/-! ## The build -/

def innerProvider (m : ModelConfig) (apiKey : String) (defaultMaxTokens : UInt32) :
    InnerProvider :=
  match m.providerType with
  | .openaiCompat => .openai { upstreamId := m.upstreamId, baseUrl := m.baseUrl, apiKey }
  | .anthropic =>
      .anthropic { upstreamId := m.upstreamId, baseUrl := m.baseUrl, apiKey, defaultMaxTokens }

/-- The build refuses to install a provider without its safety wrapper: the model whose identity has
no slot. -/
structure MissingSlot where
  model : String
  upstreamId : String
  deriving DecidableEq, Repr

/-- A build in progress: what is built, and the serial number of the next provider.  Serial numbers
tell objects apart. -/
structure Build where
  providers : Table String BuiltProvider
  next : ℕ

/-- The previous build's provider, when its signature is unchanged.  It is looked up by the name of
the model. -/
def reusable (prev : Option (Table String BuiltProvider)) (name signature : String) :
    Option BuiltProvider :=
  (prev.bind (·[name]?)).filter fun b => b.signature == signature

/-- Build or reuse the provider of one model.  A reused provider keeps its serial number, and a new
one gets the next. -/
def buildModel (env : String → Option String) (server : ServerConfig)
    (stateful : StatefulState ρ) (prev : Option (Table String BuiltProvider)) (acc : Build)
    (row : String × ModelConfig) : Except MissingSlot Build :=
  let (name, m) := row
  -- An upstream key that is not set is empty; the upstream will reject it.
  let apiKey := (env m.apiKeyEnv).getD ""
  let signature := providerSignature (ProviderInputs.of m apiKey server)
  match reusable prev name signature with
  | some existing => .ok { acc with providers := acc.providers.insert name existing }
  | none =>
      match stateful.upstream m.stateKey with
      | none => .error { model := name, upstreamId := m.upstreamId }
      | some slot =>
          let provider : GovernedProvider :=
            { inner := innerProvider m apiKey server.defaultMaxTokens, state := slot,
              retry := server.retry }
          let built : BuiltProvider := { ref := { serial := acc.next, provider }, signature }
          .ok { providers := acc.providers.insert name built, next := acc.next + 1 }

/-- Build the providers of a configuration, reusing unchanged ones of the previous build. -/
def buildProvidersWith (env : String → Option String) (config : RuntimeConfig)
    (stateful : StatefulState ρ) (prev : Option (Table String BuiltProvider)) (next : ℕ) :
    Except MissingSlot Build :=
  config.models.toList.foldlM (buildModel env config.server stateful prev)
    { providers := ∅, next }

/-! ## The orchestrator -/

/-- Wire the orchestrator to the same providers passthrough uses. -/
def buildOrchestratorFromBuilt (config : RuntimeConfig) (providers : Table String BuiltProvider) :
    Orchestrator ProviderRef where
  resolver := providers.map fun _ b => b.ref
  recipes := config.recipes.map fun _ r => toMoaRecipe r

/-! ## What a build contains -/

/-- Where the provider of a model comes from: the previous build with an unchanged signature,
or a fresh one bound to the slot of the model's identity. -/
def BuiltFrom (env : String → Option String) (server : ServerConfig) (stateful : StatefulState ρ)
    (prev : Option (Table String BuiltProvider)) (name : String) (m : ModelConfig)
    (b : BuiltProvider) : Prop :=
  b.signature = providerSignature (ProviderInputs.of m ((env m.apiKeyEnv).getD "") server) ∧
    ((∃ p, prev = some p ∧ p[name]? = some b) ∨
      (stateful.upstream m.stateKey = some b.ref.provider.state ∧
        b.ref.provider.retry = server.retry ∧
        b.ref.provider.inner = innerProvider m ((env m.apiKeyEnv).getD "") server.defaultMaxTokens))

variable {env : String → Option String} {server : ServerConfig} {stateful : StatefulState ρ}
  {prev : Option (Table String BuiltProvider)} {config : RuntimeConfig}

lemma reusable_eq_some {name signature : String} {b : BuiltProvider}
    (h : reusable prev name signature = some b) :
    b.signature = signature ∧ ∃ p, prev = some p ∧ p[name]? = some b := by
  unfold reusable at h
  rw [Option.filter_eq_some_iff] at h
  obtain ⟨hb, hsig⟩ := h
  obtain ⟨p, hp, hbp⟩ := Option.bind_eq_some_iff.1 hb
  exact ⟨by simpa using hsig, p, hp, hbp⟩

/-- One model of the build gets a provider of its own, and the others keep theirs. -/
lemma buildModel_ok {acc acc' : Build} {name : String} {m : ModelConfig}
    (h : buildModel env server stateful prev acc (name, m) = .ok acc') :
    ∃ b, acc'.providers = acc.providers.insert name b ∧
      BuiltFrom env server stateful prev name m b := by
  unfold buildModel at h
  simp only [] at h
  split at h
  · rename_i b hb
    cases h
    obtain ⟨hsig, hprev⟩ := reusable_eq_some hb
    exact ⟨b, rfl, hsig, .inl hprev⟩
  · split at h
    · cases h
    · rename_i slot hslot
      cases h
      exact ⟨_, rfl, rfl, .inr ⟨hslot, rfl, rfl⟩⟩

/-- Building a list of models gives each of them a provider of the kind one model of the build
gives, whichever was there before. -/
lemma foldlM_buildModel_rows {R : String → ModelConfig → BuiltProvider → Prop}
    (hone : ∀ {acc acc' : Build} {name : String} {m : ModelConfig},
      buildModel env server stateful prev acc (name, m) = .ok acc' →
        ∃ b, acc'.providers = acc.providers.insert name b ∧ R name m b)
    {rows : List (String × ModelConfig)} {acc acc' : Build}
    (hnodup : (rows.map Prod.fst).Nodup)
    (h : rows.foldlM (buildModel env server stateful prev) acc = .ok acc') :
    (∀ name : String, name ∉ rows.map Prod.fst → acc'.providers[name]? = acc.providers[name]?) ∧
      ∀ row ∈ rows, ∃ b, acc'.providers[row.1]? = some b ∧ R row.1 row.2 b := by
  induction rows generalizing acc with
  | nil =>
      obtain rfl : acc = acc' := pure_eq_ok.1 h
      exact ⟨fun _ _ => rfl, fun _ hrow => absurd hrow List.not_mem_nil⟩
  | cons row rows ih =>
      obtain ⟨name, m⟩ := row
      rw [List.foldlM_cons, bind_eq_ok] at h
      obtain ⟨mid, hmid, hrest⟩ := h
      obtain ⟨b, hb, hfrom⟩ := hone hmid
      obtain ⟨hfresh, hnodup'⟩ := List.nodup_cons.1 hnodup
      obtain ⟨hkeep, hrows⟩ := ih hnodup' hrest
      refine ⟨?_, ?_⟩
      · intro a ha
        obtain ⟨hne, ha'⟩ : a ≠ name ∧ a ∉ rows.map Prod.fst := by simpa using ha
        rw [hkeep a ha', hb, Table.getElem?_insert_ne _ _ (Ne.symm hne)]
      · intro row hrow
        rcases List.mem_cons.1 hrow with rfl | hin
        · refine ⟨b, ?_, hfrom⟩
          rw [hkeep name hfresh, hb, Table.getElem?_insert_same]
        · exact hrows row hin

/-- Every model of a built configuration has a provider, and its origin is known: it is the one of
the build before, or a new one of the model's inputs. -/
theorem buildProvidersWith_ok {next : ℕ} {build : Build}
    (h : buildProvidersWith env config stateful prev next = .ok build) {name : String}
    {m : ModelConfig} (hm : config.models[name]? = some m) :
    ∃ b, build.providers[name]? = some b ∧
      BuiltFrom env config.server stateful prev name m b :=
  (foldlM_buildModel_rows buildModel_ok (Table.nodup_toList _) h).2 (name, m)
    (Table.mem_toList.2 hm)

/-- A model of the reuse path keeps the provider of the previous build, the very object and not an
equal one. -/
theorem buildProvidersWith_reuses {next : ℕ} {build : Build}
    (h : buildProvidersWith env config stateful prev next = .ok build) {name : String}
    {m : ModelConfig} (hm : config.models[name]? = some m) {b : BuiltProvider}
    (hb : reusable prev name (providerSignature
      (ProviderInputs.of m ((env m.apiKeyEnv).getD "") config.server)) = some b) :
    build.providers[name]? = some b := by
  let R : String → ModelConfig → BuiltProvider → Prop := fun name m b =>
    ∀ b', reusable prev name (providerSignature
      (ProviderInputs.of m ((env m.apiKeyEnv).getD "") config.server)) = some b' → b = b'
  have hone : ∀ {acc acc' : Build} {name : String} {m : ModelConfig},
      buildModel env config.server stateful prev acc (name, m) = .ok acc' →
        ∃ b, acc'.providers = acc.providers.insert name b ∧ R name m b := by
    intro acc acc' name m hmodel
    unfold buildModel at hmodel
    simp only [] at hmodel
    split at hmodel
    · rename_i b hb
      cases hmodel
      exact ⟨b, rfl, fun b' hb' => Option.some.inj (hb.symm.trans hb')⟩
    · rename_i hnone
      split at hmodel
      · cases hmodel
      · cases hmodel
        refine ⟨_, rfl, fun b' hb' => ?_⟩
        rw [hnone] at hb'
        cases hb'
  obtain ⟨b', hb', hR⟩ := (foldlM_buildModel_rows hone (Table.nodup_toList _) h).2 (name, m)
    (Table.mem_toList.2 hm)
  rw [hb', hR b hb]

/-- The build has no other providers than those of the models.  A model that has left the
configuration leaves no provider behind. -/
theorem buildProvidersWith_only {next : ℕ} {build : Build}
    (h : buildProvidersWith env config stateful prev next = .ok build) {name : String}
    {b : BuiltProvider} (hb : build.providers[name]? = some b) :
    ∃ m, config.models[name]? = some m := by
  by_contra hnone
  have hfst : name ∉ config.models.toList.map Prod.fst := by
    rintro hmem
    obtain ⟨⟨k, m⟩, hrow, rfl⟩ := List.mem_map.1 hmem
    exact hnone ⟨m, Table.mem_toList.1 hrow⟩
  have hkeep := (foldlM_buildModel_rows buildModel_ok (Table.nodup_toList _) h).1 name hfst
  rw [hkeep] at hb
  simp at hb

lemma foldlM_buildModel_isOk {rows : List (String × ModelConfig)} {acc : Build}
    (hslots : ∀ row ∈ rows, (stateful.upstream row.2.stateKey).isSome) :
    ∃ acc', rows.foldlM (buildModel env server stateful prev) acc = .ok acc' := by
  induction rows generalizing acc with
  | nil => exact ⟨acc, rfl⟩
  | cons row rows ih =>
      obtain ⟨name, m⟩ := row
      obtain ⟨slot, hslot⟩ := Option.isSome_iff_exists.1 (hslots _ (List.mem_cons_self ..))
      have hrest : ∀ row ∈ rows, (stateful.upstream row.2.stateKey).isSome :=
        fun row hrow => hslots row (List.mem_cons_of_mem _ hrow)
      have hmid : ∃ mid, buildModel env server stateful prev acc (name, m) = .ok mid := by
        unfold buildModel
        simp only [hslot]
        split <;> exact ⟨_, rfl⟩
      obtain ⟨mid, hmid⟩ := hmid
      obtain ⟨acc', hacc'⟩ := @ih mid hrest
      refine ⟨acc', ?_⟩
      rw [List.foldlM_cons, bind_eq_ok]
      exact ⟨mid, hmid, hacc'⟩

/-- The build succeeds when every identity of the configuration has a slot.  A missing slot is its
only failure. -/
theorem buildProvidersWith_isOk {next : ℕ}
    (hslots : ∀ m ∈ Table.rows config.models, (stateful.upstream m.stateKey).isSome) :
    ∃ build, buildProvidersWith env config stateful prev next = .ok build := by
  refine foldlM_buildModel_isOk ?_
  rintro ⟨name, m⟩ hrow
  exact hslots m (Table.mem_rows.2 ⟨name, Table.mem_toList.1 hrow⟩)

end Moaray
