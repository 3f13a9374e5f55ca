import Moaray.Config.Validate

/-!
# What validation accepts

The rules of the document, stated without the loops and early exits of `validate`, and what an
accepted document turns into.  Every check is characterised by one equivalence: it succeeds exactly
when its rule holds, and then with the descriptor the rule's document stands for.

* `validModel_ok_iff`, `validKey_ok_iff`, `validRecipe_ok_iff` — one document of each kind.
* `foldlM_checkGovernance_iff` — comparing every model with the first of its identity is comparing
  all pairs.
* `validate_ok_iff` — validation as a whole, and `validate_exact`, which adds what the accepted
  descriptor guarantees.
* `Price.inRange_iff_of_isDouble` — the bound on prices, for the values a document can hold.

A loop over models or recipes fails at the first bad entry, or succeeds with a table.
`foldlM_addModel_ok_iff` and `foldlM_addRecipe_ok_iff` turn the loops into statements about all
entries: names are distinct, every entry is well formed, and the table is that of their
descriptors.  Which error is reported first when several rules are broken is not part of the rules;
`validate` says that.

**Design.**  The rules are predicates of a document (`WellFormed`) and the descriptors functions of
it (`config`), with no `Except` in either.  What an accepted configuration is, is then an equation,
and other modules work with `doc.config` and the rules and not with the validator.
-/

namespace Moaray

open Framework Validate

/-! ## Rules and descriptors of the parts -/

/-- The limit a document asks for: the burst defaults to `rps` and is raised to it. -/
def RateLimitDoc.limit (rl : RateLimitDoc) : RateLimit where
  rps := rl.rps
  burst := max (rl.burst.getD rl.rps) rl.rps

/-- A rate limit lets at least one request a second through. -/
def RateLimitDoc.WellFormed (rl : RateLimitDoc) : Prop := 1 ≤ rl.rps

namespace Price

/-- The nano-USD a finite price is rounded to are at most `i64::MAX as f64`. -/
def InRange (usd : ℚ) : Prop := roundNano usd ≤ 2 ^ 63

/-- A price is finite, not negative and in range. -/
def WellFormed (p : Price) : Prop := ∃ usd, p = .finite usd ∧ 0 ≤ usd ∧ InRange usd

/-- The nano-USD kept for a price. -/
def nano : Price → ℤ
  | .finite usd => min (roundNano usd) (2 ^ 63 - 1)
  | _ => 0

end Price

namespace ModelDoc

/-- The rules for one model on its own: where it is called, at what rate, and for which prices. -/
structure WellFormed (P : Platform) (m : ModelDoc) : Prop where
  url : P.urlScheme m.baseUrl = .ok "http" ∨ P.urlScheme m.baseUrl = .ok "https"
  rateLimit : ∀ rl, m.rateLimit = some rl → rl.WellFormed
  pricePrompt : ∀ p, m.pricePromptPerMtokUsd = some p → p.WellFormed
  priceCompletion : ∀ p, m.priceCompletionPerMtokUsd = some p → p.WellFormed

/-- The upstream identity of a model. -/
def stateKey (m : ModelDoc) : String :=
  ModelConfig.deriveStateKey m.providerType (trimEndSlashes m.baseUrl) m.apiKeyEnv

def config (m : ModelDoc) : ModelConfig where
  name := m.name
  providerType := m.providerType
  baseUrl := trimEndSlashes m.baseUrl
  apiKeyEnv := m.apiKeyEnv
  stateKey := m.stateKey
  upstreamId := m.upstreamId.getD m.name
  rateLimit := m.rateLimit.map RateLimitDoc.limit
  maxConcurrency := m.maxConcurrency
  pricePromptNanoPerMtok := m.pricePromptPerMtokUsd.map Price.nano
  priceCompletionNanoPerMtok := m.priceCompletionPerMtokUsd.map Price.nano

end ModelDoc

namespace KeyDoc

/-- The rules for one key: exactly one secret shape, something it may call, and a limit that
lets requests through. -/
structure WellFormed (k : KeyDoc) : Prop where
  secret : (k.keyEnv.isSome ∧ k.keySha256 = none) ∨ (k.keyEnv = none ∧ k.keySha256.isSome)
  allowModels : k.allowModels ≠ []
  rateLimit : ∀ rl, k.rateLimit = some rl → rl.WellFormed

def config (P : Platform) (k : KeyDoc) : KeyConfig where
  id := k.id
  secret :=
    match k.keyEnv with
    | some envVar => .plain ((P.env envVar).getD "")
    | none => .sha256 (P.toLowercase (k.keySha256.getD ""))
  allowModels := k.allowModels
  rateLimit := k.rateLimit.map RateLimitDoc.limit

end KeyDoc

namespace RecipeDoc

/-- The rules for one recipe over the known model names: it has proposers, all of its members are
configured, and its proposers can meet its quorum. -/
structure WellFormed (isKnown : String → Prop) (r : RecipeDoc) : Prop where
  proposers : r.proposers ≠ []
  known : ∀ p ∈ r.proposers, isKnown p
  aggregator : isKnown r.aggregator
  quorum_pos : 1 ≤ r.quorum
  quorum_le : r.quorum ≤ r.proposers.length

def config (name : String) (r : RecipeDoc) : RecipeConfig where
  name := name
  proposers := r.proposers
  aggregator := r.aggregator
  strategy := r.strategy
  armTimeoutMs := r.armTimeoutMs
  quorum := r.quorum

end RecipeDoc

/-- The rules for a document as a whole: there are models, their names are distinct, those of one
upstream identity ask for one governance, and every part follows its own rules. -/
structure ConfigDoc.WellFormed (P : Platform) (doc : ConfigDoc) : Prop where
  models : doc.models ≠ []
  names : (doc.models.map ModelDoc.name).Nodup
  model : ∀ m ∈ doc.models, m.WellFormed P
  /-- Models of one identity agree on their limits. -/
  governance : ∀ m ∈ doc.models, ∀ m' ∈ doc.models, m.stateKey = m'.stateKey →
    m.rateLimit.map RateLimitDoc.limit = m'.rateLimit.map RateLimitDoc.limit ∧
      m.maxConcurrency = m'.maxConcurrency
  key : ∀ k ∈ doc.keys, k.WellFormed
  recipe : ∀ (name : String) r, doc.recipes[name]? = some r →
    r.WellFormed (· ∈ doc.models.map ModelDoc.name)

/-! ## One document at a time -/

variable {P : Platform}

lemma validBaseUrl_ok_iff {model raw url : String} :
    validBaseUrl P model raw = .ok url ↔
      (P.urlScheme raw = .ok "http" ∨ P.urlScheme raw = .ok "https") ∧ url = trimEndSlashes raw := by
  unfold validBaseUrl
  cases P.urlScheme raw with
  | error reason => simp
  | ok scheme =>
      by_cases hscheme : scheme = "http" ∨ scheme = "https"
      · simp [hscheme, eq_comm]
      · simp [hscheme]

lemma validRateLimit_ok_iff {scope name : String} {doc : Option RateLimitDoc}
    {limit : Option RateLimit} :
    validRateLimit scope name doc = .ok limit ↔
      (∀ rl, doc = some rl → rl.WellFormed) ∧ limit = doc.map RateLimitDoc.limit := by
  cases doc with
  | none => simp [validRateLimit, eq_comm]
  | some rl =>
      by_cases hrps : rl.rps < 1
      · simp [validRateLimit, RateLimitDoc.WellFormed, hrps]
      · simp [validRateLimit, RateLimitDoc.WellFormed, RateLimitDoc.limit, hrps,
          UInt32.not_lt.1 hrps, eq_comm]

lemma validPrice_ok_iff {model field : String} {price : Option Price} {nano : Option ℤ} :
    validPrice P model field price = .ok nano ↔
      (∀ p, price = some p → p.WellFormed) ∧ nano = price.map Price.nano := by
  rcases price with _ | _ | _ | usd
  · simp [validPrice, eq_comm]
  · simp [validPrice, Price.WellFormed]
  · simp [validPrice, Price.WellFormed]
  · unfold validPrice
    dsimp only
    by_cases hneg : usd < 0
    · rw [if_pos hneg]
      simp [Price.WellFormed, not_le.2 hneg]
    · rw [if_neg hneg]
      by_cases hrange : Price.InRange usd
      · rw [if_neg (not_lt.2 hrange)]
        simp [Price.WellFormed, Price.nano, hrange, not_lt.1 hneg, eq_comm]
      · rw [if_pos (not_le.1 hrange)]
        simp [Price.WellFormed, hrange]

lemma validModel_ok_iff {m : ModelDoc} {model : ModelConfig} :
    validModel P m = .ok model ↔ m.WellFormed P ∧ model = m.config := by
  unfold validModel
  constructor
  · intro h
    obtain ⟨baseUrl, hurl, h⟩ := bind_eq_ok.1 h
    obtain ⟨rateLimit, hlimit, h⟩ := bind_eq_ok.1 h
    obtain ⟨prompt, hprompt, h⟩ := bind_eq_ok.1 h
    obtain ⟨completion, hcompletion, h⟩ := bind_eq_ok.1 h
    obtain ⟨hscheme, rfl⟩ := validBaseUrl_ok_iff.1 hurl
    obtain ⟨hrps, rfl⟩ := validRateLimit_ok_iff.1 hlimit
    obtain ⟨hprompt', rfl⟩ := validPrice_ok_iff.1 hprompt
    obtain ⟨hcompletion', rfl⟩ := validPrice_ok_iff.1 hcompletion
    cases h
    exact ⟨⟨hscheme, hrps, hprompt', hcompletion'⟩, rfl⟩
  · rintro ⟨hwf, rfl⟩
    rw [validBaseUrl_ok_iff.2 ⟨hwf.url, rfl⟩, validRateLimit_ok_iff.2 ⟨hwf.rateLimit, rfl⟩,
      validPrice_ok_iff.2 ⟨hwf.pricePrompt, rfl⟩, validPrice_ok_iff.2 ⟨hwf.priceCompletion, rfl⟩]
    rfl

/-- What `validKey` does once the secret is resolved. -/
lemma finishKey_ok_iff {id : String} {secret : KeySecret} {allowModels : List String}
    {doc : Option RateLimitDoc} {key : KeyConfig} :
    (if allowModels.isEmpty then Except.error (ConfigError.emptyAllowlist id)
      else do
        let rateLimit ← validRateLimit "key" id doc
        .ok { id, secret, allowModels, rateLimit }) = .ok key ↔
      (allowModels ≠ [] ∧ ∀ rl, doc = some rl → rl.WellFormed) ∧
        key = { id, secret, allowModels, rateLimit := doc.map RateLimitDoc.limit } := by
  by_cases hallow : allowModels = []
  · simp [hallow]
  · rw [if_neg (by simpa using hallow), bind_eq_ok]
    constructor
    · rintro ⟨limit, hlimit, h⟩
      obtain ⟨hrps, rfl⟩ := validRateLimit_ok_iff.1 hlimit
      cases h
      exact ⟨⟨hallow, hrps⟩, rfl⟩
    · rintro ⟨⟨-, hrps⟩, rfl⟩
      exact ⟨_, validRateLimit_ok_iff.2 ⟨hrps, rfl⟩, rfl⟩

lemma validKey_ok_iff {k : KeyDoc} {key : KeyConfig} :
    validKey P k = .ok key ↔ k.WellFormed ∧ key = k.config P := by
  have hrules : k.WellFormed ↔
      ((k.keyEnv.isSome ∧ k.keySha256 = none) ∨ (k.keyEnv = none ∧ k.keySha256.isSome)) ∧
        k.allowModels ≠ [] ∧ ∀ rl, k.rateLimit = some rl → rl.WellFormed :=
    ⟨fun h => ⟨h.secret, h.allowModels, h.rateLimit⟩, fun h => ⟨h.1, h.2.1, h.2.2⟩⟩
  rw [hrules]
  obtain ⟨id, _ | envVar, _ | hash, allowModels, rateLimit⟩ := k
  · simp [validKey, bind, Except.bind]
  · refine finishKey_ok_iff.trans ?_
    simp [KeyDoc.config]
  · refine finishKey_ok_iff.trans ?_
    simp [KeyDoc.config]
  · simp [validKey, bind, Except.bind]

lemma checkKnown_ok_iff {models : Table String ModelConfig} {recipe role : String}
    {names : List String} :
    checkKnown models recipe role names = .ok () ↔ ∀ p ∈ names, p ∈ models := by
  refine ⟨checkKnown_ok, ?_⟩
  induction names with
  | nil => intro _; rfl
  | cons name rest ih =>
      intro h
      unfold checkKnown
      rw [if_pos (h name (List.mem_cons_self ..))]
      exact ih fun p hp => h p (List.mem_cons_of_mem _ hp)

lemma validRecipe_ok_iff {models : Table String ModelConfig} {name : String} {r : RecipeDoc}
    {recipe : RecipeConfig} :
    validRecipe models name r = .ok recipe ↔
      r.WellFormed (· ∈ models) ∧ recipe = r.config name := by
  unfold validRecipe
  constructor
  · intro h
    split at h
    · cases h
    · rename_i hne
      obtain ⟨_, hproposers, h⟩ := bind_eq_ok.1 h
      obtain ⟨_, haggregator, h⟩ := bind_eq_ok.1 h
      split at h
      · cases h
      · rename_i hquorum
        cases h
        have hknown := checkKnown_ok hproposers
        have hagg := checkKnown_ok haggregator r.aggregator (List.mem_singleton_self _)
        exact ⟨⟨by simpa using hne, hknown, hagg, by omega, by omega⟩, rfl⟩
  · rintro ⟨hwf, rfl⟩
    have hpos := hwf.quorum_pos
    have hle := hwf.quorum_le
    have hagg : ∀ p ∈ [r.aggregator], p ∈ models := by simpa using hwf.aggregator
    rw [if_neg (by simpa using hwf.proposers), checkKnown_ok_iff.2 hwf.known,
      checkKnown_ok_iff.2 hagg]
    show (if r.quorum < 1 ∨ r.proposers.length < r.quorum then _ else _) = _
    rw [if_neg (by omega)]
    rfl

/-! ## The loops -/

/-- The table of the models' descriptors. -/
def modelTable (models : List ModelDoc) : Table String ModelConfig :=
  models.foldl (fun table m => table.insert m.name m.config) ∅

/-- The table of the recipes' descriptors. -/
def recipeTable (recipes : Table String RecipeDoc) : Table String RecipeConfig :=
  recipes.toList.foldl (fun table r => table.insert r.1 (r.2.config r.1)) ∅

lemma foldlM_addModel_ok_iff {models : List ModelDoc} {table table' : Table String ModelConfig} :
    models.foldlM (addModel P) table = .ok table' ↔
      ((∀ m ∈ models, m.WellFormed P) ∧ (models.map ModelDoc.name).Nodup ∧
        ∀ m ∈ models, m.name ∉ table) ∧
      table' = models.foldl (fun table m => table.insert m.name m.config) table := by
  induction models generalizing table with
  | nil =>
      rw [List.foldlM_nil, pure_eq_ok]
      simp [eq_comm]
  | cons m models ih =>
      rw [List.foldlM_cons, bind_eq_ok]
      constructor
      · rintro ⟨mid, hmid, hrest⟩
        unfold addModel at hmid
        split at hmid
        · cases hmid
        · rename_i hfresh
          obtain ⟨model, hmodel, hinsert⟩ := bind_eq_ok.1 hmid
          obtain ⟨hm, rfl⟩ := validModel_ok_iff.1 hmodel
          cases hinsert
          obtain ⟨⟨hall, hnodup, hnew⟩, rfl⟩ := ih.1 hrest
          refine ⟨⟨List.forall_mem_cons.2 ⟨hm, hall⟩, ?_, ?_⟩, rfl⟩
          · refine List.nodup_cons.2 ⟨?_, hnodup⟩
            intro hin
            obtain ⟨m', hm', hname⟩ := List.mem_map.1 hin
            exact hnew m' hm' (by simp [hname])
          · refine List.forall_mem_cons.2 ⟨hfresh, ?_⟩
            intro m' hm' hin
            exact hnew m' hm' (by simp [hin])
      · rintro ⟨⟨hall, hnodup, hnew⟩, rfl⟩
        obtain ⟨hm, hall⟩ := List.forall_mem_cons.1 hall
        obtain ⟨hname, hnodup⟩ := List.nodup_cons.1 hnodup
        obtain ⟨hfresh, hnew⟩ := List.forall_mem_cons.1 hnew
        refine ⟨table.insert m.name m.config, ?_, ih.2 ⟨⟨hall, hnodup, ?_⟩, rfl⟩⟩
        · unfold addModel
          rw [if_neg hfresh, validModel_ok_iff.2 ⟨hm, rfl⟩]
          rfl
        · intro m' hm' hin
          rcases Std.ExtTreeMap.mem_insert.1 hin with heq | hin
          · rw [Std.LawfulEqOrd.compare_eq_iff_eq] at heq
            exact hname (List.mem_map.2 ⟨m', hm', heq.symm⟩)
          · exact hnew m' hm' hin

lemma addRecipe_ok_iff {models : Table String ModelConfig} {table table' : Table String RecipeConfig}
    {r : String × RecipeDoc} :
    addRecipe models table r = .ok table' ↔
      r.2.WellFormed (· ∈ models) ∧ table' = table.insert r.1 (r.2.config r.1) := by
  unfold addRecipe
  rw [bind_eq_ok]
  constructor
  · rintro ⟨recipe, hrecipe, hinsert⟩
    obtain ⟨hr, rfl⟩ := validRecipe_ok_iff.1 hrecipe
    cases hinsert
    exact ⟨hr, rfl⟩
  · rintro ⟨hr, rfl⟩
    exact ⟨_, validRecipe_ok_iff.2 ⟨hr, rfl⟩, rfl⟩

lemma foldlM_addRecipe_ok_iff {models : Table String ModelConfig}
    {recipes : Table String RecipeDoc} {table : Table String RecipeConfig} :
    recipes.toList.foldlM (addRecipe models) ∅ = .ok table ↔
      (∀ r ∈ recipes.toList, r.2.WellFormed (· ∈ models)) ∧ table = recipeTable recipes :=
  foldlM_eq_ok (f := addRecipe models) fun _ _ _ => addRecipe_ok_iff

/-- A comparison succeeds when the model agrees with the first of its identity, if there is one: the
table keeps one model of each. -/
lemma checkGovernance_isOk {seen : Table String ModelConfig} {m : ModelConfig}
    (h : ∀ first, seen[m.stateKey]? = some first → SameLimits first m) :
    ∃ seen', checkGovernance seen m = .ok seen' ∧
      ∀ (k : String) first, seen'[k]? = some first →
        seen[k]? = some first ∨ (m.stateKey = k ∧ m = first) := by
  unfold checkGovernance
  cases hseen : seen[m.stateKey]? with
  | none =>
      refine ⟨_, rfl, ?_⟩
      intro k first hfirst
      rw [Table.getElem?_insert_eq] at hfirst
      split at hfirst
      · rename_i hk
        exact .inr ⟨hk, Option.some.inj hfirst⟩
      · exact .inl hfirst
  | some first =>
      obtain ⟨hrate, hconc⟩ := h first hseen
      simp only [hrate, hconc, ne_eq, not_true_eq_false, if_false]
      exact ⟨seen, rfl, fun _ _ hk => .inl hk⟩

/-- The comparison succeeds when every model agrees with the ones before it. -/
lemma foldlM_checkGovernance_isOk {rows : List ModelConfig} {seen : Table String ModelConfig}
    (hseen : ∀ (k : String) first, seen[k]? = some first →
      ∀ m ∈ rows, m.stateKey = k → SameLimits first m)
    (hrows : ∀ m ∈ rows, ∀ m' ∈ rows, m.stateKey = m'.stateKey → SameLimits m m') :
    ∃ seen', rows.foldlM checkGovernance seen = .ok seen' := by
  induction rows generalizing seen with
  | nil => exact ⟨seen, rfl⟩
  | cons m rows ih =>
      have hm : m ∈ m :: rows := List.mem_cons_self ..
      obtain ⟨mid, hmid, honly⟩ :=
        checkGovernance_isOk fun first hfirst => hseen _ first hfirst m hm rfl
      have hseen' : ∀ (k : String) first, mid[k]? = some first →
          ∀ m' ∈ rows, m'.stateKey = k → SameLimits first m' := by
        intro k first hfirst m' hm' hk
        have hin := List.mem_cons_of_mem m hm'
        rcases honly k first hfirst with hold | ⟨hkey, rfl⟩
        · exact hseen k first hold m' hin hk
        · exact hrows m hm m' hin (hkey.trans hk.symm)
      obtain ⟨seen', hrest⟩ := ih hseen' fun m' hm' m'' hm'' =>
        hrows m' (List.mem_cons_of_mem m hm') m'' (List.mem_cons_of_mem m hm'')
      exact ⟨seen', by rw [List.foldlM_cons, hmid]; exact hrest⟩

/-- Comparing every model with the first of its identity compares all of them, since agreement of
limits is an equivalence. -/
lemma foldlM_checkGovernance_iff {rows : List ModelConfig} :
    (∃ seen, rows.foldlM checkGovernance ∅ = .ok seen) ↔
      ∀ m ∈ rows, ∀ m' ∈ rows, m.stateKey = m'.stateKey → SameLimits m m' := by
  constructor
  · rintro ⟨seen, hseen⟩ m hm m' hm' hkey
    exact agree_of_checkGovernance hseen hm hm' hkey
  · intro hrows
    refine foldlM_checkGovernance_isOk ?_ hrows
    intro k first hfirst
    simp at hfirst

/-! ## The whole document -/

lemma getElem?_modelTable {models : List ModelDoc} (h : (models.map ModelDoc.name).Nodup)
    {name : String} {model : ModelConfig} :
    (modelTable models)[name]? = some model ↔ ∃ m ∈ models, m.name = name ∧ m.config = model := by
  unfold modelTable
  rw [Table.getElem?_foldl_insert _ _ h]
  simp

lemma mem_modelTable {models : List ModelDoc} (h : (models.map ModelDoc.name).Nodup)
    {name : String} : name ∈ modelTable models ↔ name ∈ models.map ModelDoc.name := by
  rw [Std.ExtTreeMap.mem_iff_isSome_getElem?, Option.isSome_iff_exists, List.mem_map]
  simp only [getElem?_modelTable h]
  constructor
  · rintro ⟨_, m, hm, hname, -⟩
    exact ⟨m, hm, hname⟩
  · rintro ⟨m, hm, hname⟩
    exact ⟨m.config, m, hm, hname, rfl⟩

lemma mem_rows_modelTable {models : List ModelDoc} (h : (models.map ModelDoc.name).Nodup)
    {model : ModelConfig} :
    model ∈ Table.rows (modelTable models) ↔ ∃ m ∈ models, m.config = model := by
  simp only [Table.mem_rows, getElem?_modelTable h]
  constructor
  · rintro ⟨_, m, hm, -, hmodel⟩
    exact ⟨m, hm, hmodel⟩
  · rintro ⟨m, hm, hmodel⟩
    exact ⟨m.name, m, hm, rfl, hmodel⟩

lemma getElem?_recipeTable {recipes : Table String RecipeDoc} {name : String} :
    (recipeTable recipes)[name]? = recipes[name]?.map (RecipeDoc.config name) := by
  ext recipe
  unfold recipeTable
  rw [Table.getElem?_foldl_insert _ _ (Table.nodup_toList recipes), Option.map_eq_some_iff]
  constructor
  · rintro (⟨⟨name', r⟩, hr, rfl, rfl⟩ | ⟨-, hnone⟩)
    · exact ⟨r, Table.mem_toList.1 hr, rfl⟩
    · simp at hnone
  · rintro ⟨r, hr, rfl⟩
    exact .inl ⟨(name, r), Table.mem_toList.2 hr, rfl, rfl⟩

def ConfigDoc.config (P : Platform) (doc : ConfigDoc) : RuntimeConfig where
  server := serverConfig doc.server
  keys := doc.keys.map (KeyDoc.config P)
  models := modelTable doc.models
  recipes := recipeTable doc.recipes

/-- Validation succeeds exactly on the well-formed documents, with their descriptor, for every
document and every environment. -/
theorem validate_ok_iff {doc : ConfigDoc} {config : RuntimeConfig} :
    validate P doc = .ok config ↔ doc.WellFormed P ∧ config = doc.config P := by
  constructor
  · intro h
    obtain ⟨hne, hmodels, hgov, hkeys, hrecipes, hserver⟩ := validate_ok h
    obtain ⟨⟨hmodel, hnodup, -⟩, htable⟩ := foldlM_addModel_ok_iff.1 hmodels
    have hconfig : config.models = modelTable doc.models := htable
    obtain ⟨hkey, hkeys'⟩ := (mapM_eq_ok fun k key => validKey_ok_iff).1 hkeys
    obtain ⟨hrecipe, hrecipes'⟩ := foldlM_addRecipe_ok_iff.1 hrecipes
    have hagree := foldlM_checkGovernance_iff.1 hgov
    rw [hconfig] at hagree hrecipe
    refine ⟨⟨by simpa using hne, hnodup, hmodel, ?_, hkey, ?_⟩, ?_⟩
    · intro m hm m' hm' hstate
      exact hagree m.config ((mem_rows_modelTable hnodup).2 ⟨m, hm, rfl⟩) m'.config
        ((mem_rows_modelTable hnodup).2 ⟨m', hm', rfl⟩) hstate
    · intro name r hr
      have hwf := hrecipe (name, r) (Table.mem_toList.2 hr)
      simp only [mem_modelTable hnodup] at hwf
      exact hwf
    · obtain ⟨server, keys, models, recipes⟩ := config
      simp only at hserver hkeys' hconfig hrecipes'
      rw [hserver, hkeys', hconfig, hrecipes']
      rfl
  · rintro ⟨hwf, rfl⟩
    have hmodels : doc.models.foldlM (addModel P) ∅ = .ok (modelTable doc.models) := by
      refine foldlM_addModel_ok_iff.2 ⟨⟨hwf.model, hwf.names, ?_⟩, rfl⟩
      intro m _ hin
      simp at hin
    obtain ⟨seen, hseen⟩ :
        ∃ seen, (Table.rows (modelTable doc.models)).foldlM checkGovernance ∅ = .ok seen := by
      refine foldlM_checkGovernance_iff.2 ?_
      intro c hc c' hc' hstate
      obtain ⟨m, hm, rfl⟩ := (mem_rows_modelTable hwf.names).1 hc
      obtain ⟨m', hm', rfl⟩ := (mem_rows_modelTable hwf.names).1 hc'
      exact hwf.governance m hm m' hm' hstate
    have hkeys : doc.keys.mapM (validKey P) = .ok (doc.keys.map (KeyDoc.config P)) :=
      (mapM_eq_ok fun k key => validKey_ok_iff).2 ⟨hwf.key, rfl⟩
    have hrecipes : doc.recipes.toList.foldlM (addRecipe (modelTable doc.models)) ∅ =
        .ok (recipeTable doc.recipes) := by
      refine foldlM_addRecipe_ok_iff.2 ⟨?_, rfl⟩
      rintro ⟨name, r⟩ hr
      simp only [mem_modelTable hwf.names]
      exact hwf.recipe name r (Table.mem_toList.1 hr)
    unfold validate
    rw [if_neg (by simpa using hwf.models), hmodels]
    show ((Table.rows (modelTable doc.models)).foldlM checkGovernance ∅ >>= _) = _
    rw [hseen]
    show (doc.keys.mapM (validKey P) >>= _) = _
    rw [hkeys]
    show (doc.recipes.toList.foldlM (addRecipe (modelTable doc.models)) ∅ >>= _) = _
    rw [hrecipes]
    rfl

/-! ## Prices of doubles -/

/-- A double's value: a 53-bit mantissa at some exponent. -/
def IsDouble (usd : ℚ) : Prop := ∃ (m : ℕ) (e : ℤ), m < 2 ^ 53 ∧ usd = m * 2 ^ e

lemma roundNano_ne_of_isDouble {usd : ℚ} (h : IsDouble usd) : roundNano usd ≠ 2 ^ 63 := by
  obtain ⟨m, e, hm, rfl⟩ := h
  intro hround
  unfold roundNano at hround
  obtain ⟨hlow, hhigh⟩ := Int.floor_eq_iff.1 hround
  push_cast at hlow hhigh
  by_cases he : -19 ≤ e
  · -- the value is a multiple of `2⁻¹⁹`, and none lies in the rounding interval
    obtain ⟨k, hk⟩ := Int.le.dest he
    have hval : (m : ℚ) * 2 ^ e = (m * 2 ^ k : ℕ) / 2 ^ 19 := by
      have : e = (k : ℤ) - 19 := by omega
      rw [this, zpow_sub₀ (by norm_num)]
      push_cast
      rw [zpow_natCast]
      norm_num
      ring
    rw [hval] at hlow hhigh
    have h1 : (4835703278458516 : ℚ) < (m * 2 ^ k : ℕ) := by
      norm_num at hlow ⊢
      linarith
    have h2 : ((m * 2 ^ k : ℕ) : ℚ) < 4835703278458517 := by
      norm_num at hhigh ⊢
      linarith
    have h1' : 4835703278458516 < m * 2 ^ k := by exact_mod_cast h1
    have h2' : m * 2 ^ k < 4835703278458517 := by exact_mod_cast h2
    omega
  · have hpow : (2 : ℚ) ^ e ≤ 2 ^ (-20 : ℤ) := zpow_le_zpow_right₀ (by norm_num) (by omega)
    have hmq : (m : ℚ) < 2 ^ 53 := by exact_mod_cast hm
    have hlt : (m : ℚ) * 2 ^ e ≤ 2 ^ 53 * 2 ^ (-20 : ℤ) := by
      gcongr
    norm_num at hlt hlow
    linarith

/-- For the value of a double the bound is the greatest `i64`: no such value rounds to the one
integer between the two. -/
lemma Price.inRange_iff_of_isDouble {usd : ℚ} (h : IsDouble usd) :
    Price.InRange usd ↔ roundNano usd ≤ 2 ^ 63 - 1 := by
  have hne := roundNano_ne_of_isDouble h
  unfold Price.InRange
  omega

/-! ## What validation guarantees -/

/-- A limit admits a request a second, and its burst a second's worth. -/
def RateLimit.Usable (l : RateLimit) : Prop := 1 ≤ l.rps ∧ l.rps ≤ l.burst

lemma RateLimitDoc.WellFormed.usable {rl : RateLimitDoc} (h : rl.WellFormed) : rl.limit.Usable := by
  refine ⟨h, ?_⟩
  show rl.rps ≤ if _ ≤ rl.rps then rl.rps else rl.burst.getD rl.rps
  split
  · exact UInt32.le_refl _
  · rename_i hlt
    exact (UInt32.le_total _ _).resolve_left hlt

/-- `config` holds one entry for each entry of the document, with usable limits, and every model
is keyed by its own identity. -/
structure Describes (P : Platform) (doc : ConfigDoc) (config : RuntimeConfig) : Prop where
  model : ∀ m ∈ doc.models, config.models[m.name]? = some m.config
  models_only : ∀ (name : String) model, config.models[name]? = some model →
    ∃ m ∈ doc.models, m.name = name ∧ m.config = model
  keys : config.keys = doc.keys.map (KeyDoc.config P)
  recipes : ∀ name : String, config.recipes[name]? = doc.recipes[name]?.map (RecipeDoc.config name)
  modelLimits : ∀ model ∈ Table.rows config.models, ∀ l, model.rateLimit = some l → l.Usable
  keyLimits : ∀ key ∈ config.keys, ∀ l, key.rateLimit = some l → l.Usable
  stateKeys : ∀ model ∈ Table.rows config.models,
    model.stateKey =
      ModelConfig.deriveStateKey model.providerType model.baseUrl model.apiKeyEnv

lemma ConfigDoc.WellFormed.describes {doc : ConfigDoc} (h : doc.WellFormed P) :
    Describes P doc (doc.config P) where
  model m hm := (getElem?_modelTable h.names).2 ⟨m, hm, rfl, rfl⟩
  models_only _ _ hmodel := (getElem?_modelTable h.names).1 hmodel
  keys := rfl
  recipes _ := getElem?_recipeTable
  modelLimits model hmodel l hl := by
    obtain ⟨m, hm, rfl⟩ := (mem_rows_modelTable h.names).1 hmodel
    obtain ⟨rl, hrl, rfl⟩ := Option.map_eq_some_iff.1 hl
    exact ((h.model m hm).rateLimit rl hrl).usable
  keyLimits key hkey l hl := by
    obtain ⟨k, hk, rfl⟩ := List.mem_map.1 hkey
    obtain ⟨rl, hrl, rfl⟩ := Option.map_eq_some_iff.1 hl
    exact ((h.key k hk).rateLimit rl hrl).usable
  stateKeys model hmodel := by
    obtain ⟨m, -, rfl⟩ := (mem_rows_modelTable h.names).1 hmodel
    rfl

/-- Validation accepts exactly the well-formed documents, whatever the order of its checks; an
accepted document is described entry by entry; and the bound on a price is the range of an
`i64` for every price a document can hold.  A price is the exact value of its double, and so are
its product with `10⁹` and the rounding of that; see `Validate.roundNano` for how the code's own
product of doubles can differ from it. -/
theorem validate_exact (P : Platform) (doc : ConfigDoc) :
    ((∃ config, validate P doc = .ok config) ↔ doc.WellFormed P) ∧
    (∀ config, validate P doc = .ok config → Describes P doc config) ∧
    ∀ usd, IsDouble usd → (Price.InRange usd ↔ roundNano usd ≤ 2 ^ 63 - 1) := by
  refine ⟨?_, ?_, fun usd => Price.inRange_iff_of_isDouble⟩
  · constructor
    · rintro ⟨config, h⟩
      exact (validate_ok_iff.1 h).1
    · intro hwf
      exact ⟨doc.config P, validate_ok_iff.2 ⟨hwf, rfl⟩⟩
  · intro config h
    obtain ⟨hwf, rfl⟩ := validate_ok_iff.1 h
    exact hwf.describes

end Moaray
