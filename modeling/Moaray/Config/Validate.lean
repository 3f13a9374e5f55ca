import Moaray.Config.Schema
import Moaray.Core.Text
import Moaray.Framework.Fallible

/-!
# Validation of the document into the runtime descriptor

All cross-field invariants of a configuration are established here, so the rest of the development
trusts a `RuntimeConfig` that `validate` returned.  What the operating system and the URL library
contribute is a `Platform`; prices are exact values.

* `validModel`, `validKey`, `validRecipe` — one document of each kind, with the checks in the
  source's order.
* `addModel`, `addRecipe`, `checkGovernance` — one turn of each of the loops.
* `validate` — all of it; `validate_ok`: what a successful validation went through.
* `governance_agrees` — two validated models of one upstream identity ask for the same governance,
  which is what lets them share a slot.
* `validated_recipe` — a validated recipe has proposers, and a quorum they can meet.

The checks stop at the first error, and the error names the field it is about.  Governance is
compared against the first model of each identity, in the order of the models' names; the invariant
of that loop is that every model so far agrees with the first of its identity, and two models that
agree with a third agree with each other.

**Design.**  Environment and URL parser are functions of a `Platform`, so validation is a function
of the document and the platform, and a reload can be validated under another environment than the
startup was.
-/

namespace Moaray

open Framework

/-- A configuration error, surfaced at startup or by a reload.  It names the model, key or recipe
and the field it is about. -/
inductive ConfigError
  | parse (reason : String)
  | duplicateModel (name : String)
  | emptyAllowlist (key : String)
  | keySecretShape (key : String)
  | badBaseUrlScheme (model scheme : String)
  | badBaseUrl (model reason : String)
  | unknownRecipeModel (recipe role model : String)
  | emptyProposers (recipe : String)
  | badQuorum (recipe : String) (quorum max : ℕ)
  | noModels
  | badRateLimit (scope name : String)
  | badPrice (model field value : String)
  | conflictingUpstreamGovernance (upstreamId first second field : String)
  deriving DecidableEq, Repr

/-- What validation reads of the world around it: the environment, and a few functions of the
standard library and the URL library. -/
structure Platform where
  /-- The environment. -/
  env : String → Option String
  /-- `Url::parse`: the scheme of a well-formed URL, or the reason it is none. -/
  urlScheme : String → Except String String
  /-- `str::to_lowercase`, which is applied to the digest of a key.  Nothing is assumed of it: on
  hexadecimal digits it is the ASCII mapping, but validation does not check that a digest has no
  other characters, and what is proved holds for whatever it maps these to. -/
  toLowercase : String → String
  /-- `to_string` of a double. -/
  displayPrice : Price → String

namespace Validate

variable (P : Platform)

def validBaseUrl (model raw : String) : Except ConfigError String :=
  match P.urlScheme raw with
  | .error reason => .error (.badBaseUrl model reason)
  | .ok scheme =>
      if scheme = "http" ∨ scheme = "https" then .ok (trimEndSlashes raw)
      else .error (.badBaseUrlScheme model scheme)

/-- A burst below `rps` is raised to it, so a single allowed request is never starved. -/
def validRateLimit (scope name : String) :
    Option RateLimitDoc → Except ConfigError (Option RateLimit)
  | none => .ok none
  | some rl =>
      if rl.rps < 1 then .error (.badRateLimit scope name)
      else .ok (some { rps := rl.rps, burst := max (rl.burst.getD rl.rps) rl.rps })

/-- Nano-USD, rounded half away from zero; a price is not negative here.  The product is the exact
one: the code multiplies doubles, and its product is rounded to a double before `round` sees it,
so near the bound the two can differ by as much as the spacing of doubles there. -/
def roundNano (usd : ℚ) : ℤ := ⌊usd * 1000000000 + 1 / 2⌋

/-- Convert a price to integer nano-USD.  The bound is `i64::MAX as f64`, one more than the
greatest integer the cast can keep, so the cast saturates there.  The exact product of a double
never comes to the bound, but the code's product of doubles does: it accepts the price
`9223372036.854776`, whose exact product is above the bound, and the cast saturates. -/
def validPrice (model field : String) : Option Price → Except ConfigError (Option ℤ)
  | none => .ok none
  | some (.finite usd) =>
      if usd < 0 then .error (.badPrice model field (P.displayPrice (.finite usd)))
      else if 2 ^ 63 < roundNano usd then
        .error (.badPrice model field (P.displayPrice (.finite usd)))
      else .ok (some (min (roundNano usd) (2 ^ 63 - 1)))
  | some v => .error (.badPrice model field (P.displayPrice v))

/-- Validate one model document: its URL, its limit and its two prices, in this order.  The state
key is derived from the normalised URL. -/
def validModel (m : ModelDoc) : Except ConfigError ModelConfig := do
  let baseUrl ← validBaseUrl P m.name m.baseUrl
  let rateLimit ← validRateLimit "model" m.name m.rateLimit
  let pricePrompt ← validPrice P m.name "price_prompt_per_mtok_usd" m.pricePromptPerMtokUsd
  let priceCompletion ←
    validPrice P m.name "price_completion_per_mtok_usd" m.priceCompletionPerMtokUsd
  .ok
    { name := m.name, providerType := m.providerType, baseUrl, apiKeyEnv := m.apiKeyEnv,
      stateKey := ModelConfig.deriveStateKey m.providerType baseUrl m.apiKeyEnv,
      upstreamId := m.upstreamId.getD m.name, rateLimit, maxConcurrency := m.maxConcurrency,
      pricePromptNanoPerMtok := pricePrompt, priceCompletionNanoPerMtok := priceCompletion }

/-- Add one model to the ones before it; a name that is already there is an error. -/
def addModel (models : Table String ModelConfig) (m : ModelDoc) :
    Except ConfigError (Table String ModelConfig) := do
  if m.name ∈ models then .error (.duplicateModel m.name)
  else
    let model ← validModel P m
    .ok (models.insert m.name model)

/-- Compare one model with the first of its upstream identity.  The first is remembered, and the
error names the two models and the field they differ in. -/
def checkGovernance (seen : Table String ModelConfig) (m : ModelConfig) :
    Except ConfigError (Table String ModelConfig) :=
  match seen[m.stateKey]? with
  | none => .ok (seen.insert m.stateKey m)
  | some first =>
      if first.rateLimit ≠ m.rateLimit then
        .error (.conflictingUpstreamGovernance m.upstreamId first.name m.name "rate_limit")
      else if first.maxConcurrency ≠ m.maxConcurrency then
        .error (.conflictingUpstreamGovernance m.upstreamId first.name m.name "max_concurrency")
      else .ok seen

/-- Validate one key: exactly one secret shape and a non-empty allowlist.  A secret that the
environment does not hold is kept empty, and matches nothing. -/
def validKey (k : KeyDoc) : Except ConfigError KeyConfig := do
  let secret ← match k.keyEnv, k.keySha256 with
    | some envVar, none => Except.ok (KeySecret.plain ((P.env envVar).getD ""))
    | none, some hash => .ok (.sha256 (P.toLowercase hash))
    | _, _ => .error (.keySecretShape k.id)
  if k.allowModels.isEmpty then .error (.emptyAllowlist k.id)
  else
    let rateLimit ← validRateLimit "key" k.id k.rateLimit
    .ok { id := k.id, secret, allowModels := k.allowModels, rateLimit }

/-- Every model a recipe names under `role` must be configured. -/
def checkKnown (models : Table String ModelConfig) (recipe role : String) :
    List String → Except ConfigError Unit
  | [] => .ok ()
  | model :: rest =>
      if model ∈ models then checkKnown models recipe role rest
      else .error (.unknownRecipeModel recipe role model)

/-- Validate one recipe: known models and a quorum within `1..=proposers.len()`. -/
def validRecipe (models : Table String ModelConfig) (name : String) (r : RecipeDoc) :
    Except ConfigError RecipeConfig := do
  if r.proposers.isEmpty then .error (.emptyProposers name)
  else
    checkKnown models name "proposer" r.proposers
    checkKnown models name "aggregator" [r.aggregator]
    if r.quorum < 1 ∨ r.proposers.length < r.quorum then
      .error (.badQuorum name r.quorum r.proposers.length)
    else
      .ok
        { name, proposers := r.proposers, aggregator := r.aggregator, strategy := r.strategy,
          armTimeoutMs := r.armTimeoutMs, quorum := r.quorum }

/-- Add one recipe to the ones before it. -/
def addRecipe (models : Table String ModelConfig) (recipes : Table String RecipeConfig)
    (r : String × RecipeDoc) : Except ConfigError (Table String RecipeConfig) := do
  let recipe ← validRecipe models r.1 r.2
  .ok (recipes.insert r.1 recipe)

/-- The server knobs need no validation.  Every value is taken as it stands in the document. -/
def serverConfig (s : ServerDoc) : ServerConfig where
  bind := s.bind
  port := s.port
  requestTimeoutMs := s.requestTimeoutMs
  maxBodyBytes := s.maxBodyBytes
  shutdownGraceMs := s.shutdownGraceMs
  defaultMaxTokens := s.defaultMaxTokens
  moaExposeMetadata := s.moaExposeMetadata
  breaker :=
    { failureThreshold := s.breaker.failureThreshold, openMs := s.breaker.openMs,
      halfOpenSuccesses := s.breaker.halfOpenSuccesses }
  retry :=
    { enabled := s.retry.enabled, maxRetries := s.retry.maxRetries,
      backoffMs := s.retry.backoffMs }
  usageStore := s.usageStore.map fun u =>
    { path := u.path, channelCapacity := u.channelCapacity, batchSize := u.batchSize }

end Validate

open Validate

/-- Validate a parsed document: models, governance, keys and recipes, in this order. -/
def validate (P : Platform) (doc : ConfigDoc) : Except ConfigError RuntimeConfig := do
  if doc.models.isEmpty then .error .noModels
  else
    let models ← doc.models.foldlM (addModel P) ∅
    let _ ← (Table.rows models).foldlM checkGovernance ∅
    let keys ← doc.keys.mapM (validKey P)
    let recipes ← doc.recipes.toList.foldlM (addRecipe models) ∅
    .ok { server := serverConfig doc.server, keys, models, recipes }

/-- The configurations validation lets through, from whatever document. -/
def Validated (P : Platform) (config : RuntimeConfig) : Prop :=
  ∃ doc, validate P doc = .ok config

variable {P : Platform} {config : RuntimeConfig}

/-- What a successful validation went through: each of its loops succeeded, with what the
configuration holds. -/
lemma validate_ok {doc : ConfigDoc} (h : validate P doc = .ok config) :
    doc.models.isEmpty = false ∧ doc.models.foldlM (addModel P) ∅ = .ok config.models ∧
      (∃ seen, (Table.rows config.models).foldlM checkGovernance ∅ = .ok seen) ∧
      doc.keys.mapM (validKey P) = .ok config.keys ∧
      doc.recipes.toList.foldlM (addRecipe config.models) ∅ = .ok config.recipes ∧
      config.server = serverConfig doc.server := by
  unfold validate at h
  split at h
  · cases h
  · rename_i hne
    obtain ⟨models, hmodels, h⟩ := bind_eq_ok.1 h
    obtain ⟨seen, hseen, h⟩ := bind_eq_ok.1 h
    obtain ⟨keys, hkeys, h⟩ := bind_eq_ok.1 h
    obtain ⟨recipes, hrecipes, h⟩ := bind_eq_ok.1 h
    cases h
    exact ⟨by simpa using hne, hmodels, ⟨seen, hseen⟩, hkeys, hrecipes, rfl⟩

/-! ## Models of one upstream identity -/

/-- Two models ask for the same limits: those of a slot they would share. -/
def SameLimits (m m' : ModelConfig) : Prop :=
  m.rateLimit = m'.rateLimit ∧ m.maxConcurrency = m'.maxConcurrency

/-- One comparison keeps the first model of every identity and holds the new one to it. -/
lemma checkGovernance_ok {seen seen' : Table String ModelConfig} {m : ModelConfig}
    (h : checkGovernance seen m = .ok seen') :
    (∀ (k : String) (first : ModelConfig), seen[k]? = some first → seen'[k]? = some first) ∧
      ∃ first, seen'[m.stateKey]? = some first ∧ SameLimits first m := by
  unfold checkGovernance at h
  split at h
  · rename_i hnone
    cases h
    refine ⟨?_, m, Table.getElem?_insert_same _ _ _, rfl, rfl⟩
    intro k first hk
    rw [Table.getElem?_insert_eq, if_neg]
    · exact hk
    · rintro rfl
      rw [hnone] at hk
      cases hk
  · rename_i first hfirst
    split at h
    · cases h
    · rename_i hrate
      split at h
      · cases h
      · rename_i hconc
        cases h
        exact ⟨fun _ _ hk => hk, first, hfirst, not_not.1 hrate, not_not.1 hconc⟩

/-- After the whole comparison every model agrees with the first of its identity, and that one is
still in the table. -/
lemma foldlM_checkGovernance_ok {rows : List ModelConfig} {seen seen' : Table String ModelConfig}
    (h : rows.foldlM checkGovernance seen = .ok seen') :
    (∀ (k : String) (first : ModelConfig), seen[k]? = some first → seen'[k]? = some first) ∧
      ∀ m ∈ rows, ∃ first, seen'[m.stateKey]? = some first ∧ SameLimits first m := by
  induction rows generalizing seen with
  | nil =>
      obtain rfl : seen = seen' := pure_eq_ok.1 h
      exact ⟨fun _ _ hk => hk, nofun⟩
  | cons m rows ih =>
      rw [List.foldlM_cons, bind_eq_ok] at h
      obtain ⟨mid, hmid, hrest⟩ := h
      obtain ⟨hkeep, first, hfirst, hsame⟩ := checkGovernance_ok hmid
      obtain ⟨hkeep', hrows⟩ := ih hrest
      refine ⟨fun k f hk => hkeep' k f (hkeep k f hk), ?_⟩
      intro m' hm'
      rcases List.mem_cons.1 hm' with rfl | hin
      · exact ⟨first, hkeep' _ _ hfirst, hsame⟩
      · exact hrows m' hin

/-- Models of one identity that pass the comparison agree with each other. -/
lemma agree_of_checkGovernance {rows : List ModelConfig} {seen seen' : Table String ModelConfig}
    (h : rows.foldlM checkGovernance seen = .ok seen') {m m' : ModelConfig} (hm : m ∈ rows)
    (hm' : m' ∈ rows) (hkey : m.stateKey = m'.stateKey) : SameLimits m m' := by
  obtain ⟨-, hrows⟩ := foldlM_checkGovernance_ok h
  obtain ⟨first, hfirst, hrate, hconc⟩ := hrows m hm
  obtain ⟨first', hfirst', hrate', hconc'⟩ := hrows m' hm'
  obtain rfl : first = first' := by
    rw [hkey, hfirst'] at hfirst
    exact (Option.some.inj hfirst).symm
  exact ⟨hrate.symm.trans hrate', hconc.symm.trans hconc'⟩

/-- Validated models of one upstream identity ask for the same limits.  Validation compares each
model with the first of its identity only; two models that agree with that one agree with each
other. -/
theorem governance_agrees (h : Validated P config) {m m' : ModelConfig}
    (hm : m ∈ Table.rows config.models) (hm' : m' ∈ Table.rows config.models)
    (hkey : m.stateKey = m'.stateKey) : SameLimits m m' := by
  obtain ⟨doc, hdoc⟩ := h
  obtain ⟨-, -, ⟨seen, hseen⟩, -⟩ := validate_ok hdoc
  exact agree_of_checkGovernance hseen hm hm' hkey

/-! ## Recipes -/

/-- A recipe the orchestrator can trust: a quorum its proposers can meet, and models that are
configured. -/
structure RecipeConfig.WellFormed (models : Table String ModelConfig) (r : RecipeConfig) :
    Prop where
  quorum_pos : 1 ≤ r.quorum
  quorum_le : r.quorum ≤ r.proposers.length
  known : ∀ p ∈ r.proposers, p ∈ models
  aggregator : r.aggregator ∈ models

lemma checkKnown_ok {models : Table String ModelConfig} {recipe role : String}
    {names : List String} (h : checkKnown models recipe role names = .ok ()) :
    ∀ p ∈ names, p ∈ models := by
  induction names with
  | nil => nofun
  | cons name rest ih =>
      unfold checkKnown at h
      split at h
      · rename_i hname
        intro p hp
        rcases List.mem_cons.1 hp with rfl | hin
        · exact hname
        · exact ih h p hin
      · cases h

lemma validRecipe_ok {models : Table String ModelConfig} {name : String} {r : RecipeDoc}
    {recipe : RecipeConfig} (h : validRecipe models name r = .ok recipe) :
    recipe.WellFormed models ∧ recipe.name = name := by
  unfold validRecipe at h
  split at h
  · cases h
  · obtain ⟨_, hproposers, h⟩ := bind_eq_ok.1 h
    obtain ⟨_, haggregator, h⟩ := bind_eq_ok.1 h
    split at h
    · cases h
    · rename_i hquorum
      cases h
      refine ⟨⟨?_, ?_, checkKnown_ok hproposers, checkKnown_ok haggregator _ (by simp)⟩, rfl⟩
      · show 1 ≤ r.quorum
        omega
      · show r.quorum ≤ r.proposers.length
        omega

/-- Every recipe of a validated configuration is well formed and carries its own name. -/
theorem validated_recipe (h : Validated P config) {name : String} {r : RecipeConfig}
    (hr : config.recipes[name]? = some r) : r.WellFormed config.models ∧ r.name = name := by
  obtain ⟨doc, hdoc⟩ := h
  obtain ⟨-, -, -, -, hrecipes, -⟩ := validate_ok hdoc
  refine foldlM_ok (I := fun recipes : Table String RecipeConfig =>
    ∀ (name : String) r, recipes[name]? = some r → r.WellFormed config.models ∧ r.name = name)
    ?_ ?_ hrecipes name r hr
  · intro recipes rd _ recipes' hprev hadd name r hr
    obtain ⟨recipe, hvalid, hinsert⟩ := bind_eq_ok.1 hadd
    cases hinsert
    rw [Table.getElem?_insert_eq] at hr
    split at hr
    · rename_i hname
      cases hr
      rw [← hname]
      exact validRecipe_ok hvalid
    · exact hprev name r hr
  · intro name r hr
    simp at hr

end Moaray
