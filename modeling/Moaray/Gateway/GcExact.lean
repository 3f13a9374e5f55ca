import Moaray.Gateway.Coherence

/-!
# Collections are exact

A reload schedules a collection only when its own difference shows a removal, and the collection
reads whatever configuration is published when it runs.  While none is pending, every slot is of an
identity the published configuration has, or of one the running reload is about to publish or has
just removed.

* `Within` — which identities have a slot; what ensuring and collecting do to it.
* `Tidy` — the identities that may have a slot, at every statement of a reload.
* `tidy_of_reachable` — the invariant over runs.
* `gc_exact` — with no collection pending and no reload running, the slots are those of the
  published configuration.

A reload that fails after it has ensured the slots of its configuration leaves them behind, and
does not schedule a collection for them; applying a validated configuration does not fail, and that
is what keeps the invariant there.  Collections may run in any order and at any time between
reloads, and one that finds nothing to do does no harm.

**Design.**  `Tidy` is about the set of identities with a slot and counts the collections that are
pending; it promises nothing while one is.  So the order in which they fire plays no part, and a
single step of the last one restores it.
-/

namespace Moaray

open Framework

variable {ρ : Type}

namespace Reload

/-- Only these identities have a slot.  Whether all of them have one is not said. -/
def Within (slots : Pool String (Governed.State ρ)) (keys : Finset String) : Prop :=
  ∀ key, (slots.lookup key).isSome → key ∈ keys

def keysOf (models : List ModelConfig) : Finset String :=
  (models.map ModelConfig.stateKey).toFinset

lemma stateKeys_eq (config : RuntimeConfig) : stateKeys config = keysOf (Table.rows config.models) :=
  rfl

lemma mem_stateKeys {config : RuntimeConfig} {key : String} :
    key ∈ stateKeys config ↔ ∃ m ∈ Table.rows config.models, m.stateKey = key := by
  simp [stateKeys]

lemma liveUpstream_iff {config : RuntimeConfig} {key : String} :
    StatefulState.liveUpstream config key = true ↔ key ∈ stateKeys config := by
  simp [StatefulState.liveUpstream, mem_stateKeys]

section Within

variable {slots : Pool String (Governed.State ρ)} {keys keys' : Finset String}

lemma Within.mono (h : Within slots keys) (hsub : keys ⊆ keys') : Within slots keys' :=
  fun key hkey => hsub (h key hkey)

lemma Within.ensure (h : Within slots keys) (m : ModelConfig) (g : UpstreamGovernance) :
    Within (slots.ensure governanceOf freshSlot m.stateKey g) (insert m.stateKey keys) := by
  intro key hkey
  by_cases hm : m.stateKey = key
  · exact hm ▸ Finset.mem_insert_self _ _
  · rw [Pool.lookup_ensure_ne governanceOf freshSlot slots g hm] at hkey
    exact Finset.mem_insert_of_mem (h key hkey)

/-- A collection leaves the identities of its configuration only. -/
lemma within_retain (slots : Pool String (Governed.State ρ)) (config : RuntimeConfig) :
    Within (slots.retain (StatefulState.liveUpstream config)) (stateKeys config) := by
  intro key hkey
  rw [Pool.lookup_retain] at hkey
  split at hkey
  · rename_i hlive
    exact liveUpstream_iff.1 hlive
  · cases hkey

end Within

/-! ## The invariant -/

/-- What may have a slot while no collection is pending, at each stage of a reload. -/
def Tidy (slots : Pool String (Governed.State ρ)) (config : RuntimeConfig) (pending : ℕ) :
    Stage → Prop
  | .idle => pending = 0 → Within slots (stateKeys config)
  | .ensuring job todo =>
      job.prev = config ∧
        ∃ done, Table.rows job.new.models = done ++ todo ∧
          (pending = 0 → Within slots (stateKeys config ∪ keysOf done))
  | .installing job _ outcome _ =>
      job.prev = config ∧
        outcome.upstreamsRemoved = (stateKeys job.prev \ stateKeys job.new).card ∧
        (pending = 0 → Within slots (stateKeys config ∪ stateKeys job.new))
  | .published job _ outcome | .remembered job outcome =>
      stateKeys config = stateKeys job.new ∧
        outcome.upstreamsRemoved = (stateKeys job.prev \ stateKeys job.new).card ∧
        (pending = 0 → Within slots (stateKeys job.prev ∪ stateKeys job.new))

variable {calls : ℕ → ℕ → Governed.Call} {s t : System ρ} {a : Action ρ}

/-- The invariant reads which identities have a slot, and nothing of the slots themselves. -/
lemma Tidy.of_lookup {slots slots' : Pool String (Governed.State ρ)} {config : RuntimeConfig}
    {pending : ℕ} {stage : Stage} (h : Tidy slots config pending stage)
    (hslots : ∀ key, slots'.lookup key = slots.lookup key) : Tidy slots' config pending stage := by
  have hwithin : ∀ {keys}, Within slots keys → Within slots' keys := by
    intro keys hkeys key hkey
    rw [hslots] at hkey
    exact hkeys key hkey
  cases stage with
  | idle => exact fun hnone => hwithin (h hnone)
  | ensuring job todo =>
      obtain ⟨hprev, done, hrows, hkeys⟩ := h
      exact ⟨hprev, done, hrows, fun hnone => hwithin (hkeys hnone)⟩
  | installing job built outcome todo =>
      exact ⟨h.1, h.2.1, fun hnone => hwithin (h.2.2 hnone)⟩
  | published job built outcome | remembered job outcome =>
      exact ⟨h.1, h.2.1, fun hnone => hwithin (h.2.2 hnone)⟩

/-- A reload that schedules no collection removed nothing. -/
lemma spawnGc_eq_zero {removed pending : ℕ} (h : spawnGc removed pending = 0) :
    removed = 0 ∧ pending = 0 := by
  unfold spawnGc at h
  split at h <;> omega

/-- Every step keeps the invariant.  A reload that removes identities schedules a collection, and
until that has run nothing is said about the slots. -/
theorem Tidy.step (h : Moves calls s a t) (hslots : Consistent s.slots s.config s.stage)
    (hs : Tidy s.slots s.config s.core.pendingGc s.stage) :
    Tidy t.slots t.config t.core.pendingGc t.stage := by
  cases h with
  | reject hidle _ =>
      rw [hidle] at hs
      exact hs
  | start hidle _ =>
      rw [hidle] at hs
      exact ⟨rfl, [], rfl, fun hnone => (hs hnone).mono Finset.subset_union_left⟩
  | @ensure job m todo hstage =>
      rw [hstage] at hs
      obtain ⟨hprev, done, hrows, hkeys⟩ := hs
      refine ⟨hprev, done ++ [m], by simp [hrows], fun hnone => ?_⟩
      refine ((hkeys hnone).ensure m _).mono ?_
      intro key hkey
      simp only [keysOf, List.map_append, List.toFinset_append, Finset.mem_union,
        Finset.mem_insert] at hkey ⊢
      rcases hkey with rfl | hkey | hkey
      · simp
      · exact .inl hkey
      · exact .inr (.inl hkey)
  | @build job hstage =>
      -- The build cannot fail, so what was ensured is going to be published.
      obtain ⟨built, hbuilt⟩ := Consistent.build_isOk hstage hslots
      rw [hstage] at hs
      obtain ⟨hprev, done, hrows, hkeys⟩ := hs
      rw [System.build_ok hbuilt]
      refine ⟨hprev, rfl, fun hnone => ?_⟩
      rw [stateKeys_eq job.new, hrows, List.append_nil]
      exact hkeys hnone
  | @install job built outcome k todo hstage =>
      rw [hstage] at hs
      exact hs
  | @publish job built outcome hstage =>
      rw [hstage] at hs
      obtain ⟨hprev, hremoved, hkeys⟩ := hs
      refine ⟨rfl, hremoved, fun hnone => ?_⟩
      rw [hprev]
      exact hkeys hnone
  | @remember job built outcome hstage =>
      rw [hstage] at hs
      exact hs
  | @finish job outcome hstage =>
      rw [hstage] at hs
      obtain ⟨hpublished, hremoved, hkeys⟩ := hs
      intro hnone
      obtain ⟨hzero, hpending⟩ := spawnGc_eq_zero hnone
      rw [hzero] at hremoved
      have hsub : stateKeys job.prev ⊆ stateKeys job.new :=
        Finset.sdiff_eq_empty_iff_subset.1 (Finset.card_eq_zero.1 hremoved.symm)
      have hwithin : Within s.slots (stateKeys job.prev ∪ stateKeys job.new) := hkeys hpending
      rw [Finset.union_eq_right.2 hsub, ← hpublished] at hwithin
      exact hwithin
  | collect hidle _ =>
      show Tidy s.collect.slots s.config s.collect.core.pendingGc s.stage
      rw [hidle]
      exact fun _ => within_retain s.slots s.config
  | upstream hr ha => exact hs.of_lookup fun key => Pool.lookup_update ..
  | @request presented answer =>
      have hpending : (s.request presented answer).core.pendingGc = s.core.pendingGc := by
        rcases s.request_cases presented answer with h | ⟨r, b, -, h⟩ <;> rw [h]
        rfl
      rw [System.slots_request, System.config_request, System.stage_request, hpending]
      exact hs

lemma Started.tidy (h : Started s) : Tidy s.slots s.config s.core.pendingGc s.stage := by
  obtain ⟨P, config, path, hvalid, hcore, hidle, -⟩ := h
  obtain ⟨built, -, hs⟩ := startup_ok hcore
  rw [hidle]
  intro _
  show Within s.core.stateful.perUpstream (stateKeys s.core.runtime.config)
  rw [hs, slots_fromConfig]
  intro key hkey
  by_contra hnot
  have habsent : ∀ i ∈ StatefulState.requests config, i.1 ≠ key := by
    rintro i hi rfl
    obtain ⟨m, hm, rfl⟩ := List.mem_map.1 hi
    exact hnot (mem_stateKeys.2 ⟨m, hm, rfl⟩)
  rw [Pool.lookup_ensureAll_of_not_mem habsent] at hkey
  simp [Pool.lookup, Pool.empty] at hkey

/-- The invariant holds in every reachable state.  It is proved together with the consistency of
slots and configuration, on which its steps depend. -/
theorem tidy_of_reachable (h : (machine calls).Reachable Started s) :
    Tidy s.slots s.config s.core.pendingGc s.stage := by
  refine (h.invariant (I := fun s => Consistent s.slots s.config s.stage ∧
    Tidy s.slots s.config s.core.pendingGc s.stage) ?_ ?_).2
  · exact fun s hs => ⟨hs.consistent, hs.tidy⟩
  · rintro s a t ⟨hslots, hs⟩ hstep
    exact ⟨Consistent.step (moves_of_step hstep) hslots, Tidy.step (moves_of_step hstep) hslots hs⟩

/-- What a running reload may have left a slot of, as long as it has not scheduled a collection:
the identities it found published and those it publishes. -/
lemma Tidy.within_job {slots : Pool String (Governed.State ρ)} {config : RuntimeConfig}
    {pending : ℕ} {stage : Stage} {job : Job} (h : Tidy slots config pending stage)
    (hjob : stage.job = some job) (hnone : pending = 0) :
    Within slots (stateKeys job.prev ∪ stateKeys job.new) := by
  cases stage with
  | idle => cases hjob
  | ensuring job' todo =>
      obtain rfl := Option.some.inj hjob
      obtain ⟨hprev, done, hrows, hkeys⟩ := h
      refine (hkeys hnone).mono ?_
      rw [hprev, stateKeys_eq job'.new, hrows]
      refine Finset.union_subset_union_right ?_
      intro key hkey
      simp only [keysOf, List.map_append, List.toFinset_append, Finset.mem_union] at hkey ⊢
      exact .inl hkey
  | installing job' built outcome todo =>
      obtain rfl := Option.some.inj hjob
      rw [h.1]
      exact h.2.2 hnone
  | published job' built outcome | remembered job' outcome =>
      obtain rfl := Option.some.inj hjob
      exact h.2.2 hnone

/-- Collections are exact.  In every reachable state without a pending collection: between
reloads the identities with a slot are those of the published configuration, and while a reload
runs they are among those it replaces and those it brings.  And whenever a collection runs, the
slots it removes and those that stay are the ones there were. -/
theorem gc_exact (h : (machine calls).Reachable Started s) :
    (s.core.pendingGc = 0 →
      (s.stage = .idle → ∀ key, (s.slots.lookup key).isSome ↔ key ∈ stateKeys s.config) ∧
      ∀ job, s.stage.job = some job → ∀ key, (s.slots.lookup key).isSome →
        key ∈ stateKeys job.prev ∪ stateKeys job.new) ∧
    ∀ t, (machine calls).step s .gc = some t →
      (s.core.stateful.retainForConfig s.config).2 + t.slots.index.size = s.slots.index.size := by
  have htidy := tidy_of_reachable h
  have hroutable := (consistent_of_reachable h).routable
  refine ⟨fun hnone => ⟨fun hidle key => ⟨fun hkey => ?_, fun hkey => ?_⟩, ?_⟩, ?_⟩
  · rw [hidle] at htidy
    exact htidy hnone key hkey
  · obtain ⟨m, hm, rfl⟩ := mem_stateKeys.1 hkey
    exact hroutable m hm
  · exact fun job hjob => htidy.within_job hjob hnone
  · intro t hstep
    cases moves_of_step hstep with
    | collect _ _ =>
        have hle : (s.slots.retain (StatefulState.liveUpstream s.config)).index.size ≤
            s.slots.index.size := Std.ExtTreeMap.size_filter_le_size
        exact Nat.sub_add_cancel hle

/-- The document with its model moved to another upstream. -/
def movedDoc : ConfigDoc where
  keys := []
  models :=
    [{ name := "opus", providerType := .anthropic, baseUrl := "https://b",
       apiKeyEnv := "UPSTREAM_KEY", upstreamId := none, rateLimit := none, maxConcurrency := none,
       pricePromptPerMtokUsd := none, priceCompletionPerMtokUsd := none }]

def movedConfig : RuntimeConfig where
  server := Validate.serverConfig {}
  keys := []
  models := (∅ : Table String ModelConfig).insert "opus"
    { soloModel none with baseUrl := "https://b", stateKey := "anthropic|https://b|UPSTREAM_KEY" }
  recipes := ∅

/-- A server whose model moves: after the collection the old identity has no slot. -/
theorem gc_exact_moved :
    ∃ (s t : System Unit) (n : ℕ), s.config = soloConfig none [] ∧
      (machine soloCalls).run s
          (.reload (soloWorld movedDoc) :: List.replicate n .advance ++ [.gc]) = some t ∧
      ∀ key, (t.slots.lookup key).isSome ↔ key ∈ stateKeys movedConfig := by
  obtain ⟨s, hcore, hidle, hresult, hconfig⟩ :=
    exists_started (ρ := Unit) ⟨_, validate_solo⟩ "moaray.yaml"
  have hstart : Started s := ⟨soloPlatform, _, _, ⟨_, validate_solo⟩, hcore, hidle, hresult⟩
  let w := soloWorld movedDoc
  have hread : ∀ path, readConfig w path = .ok movedConfig := fun _ => rfl
  obtain ⟨n, hrun⟩ := run_apply soloCalls hidle (hread s.core.configPath)
  have hvalid : Validated soloPlatform movedConfig := ⟨movedDoc, rfl⟩
  obtain ⟨built, hbuilt⟩ := build_ensured_isOk hvalid w.platform.env s.core.stateful
    (some s.core.lastBuilt) s.core.nextSerial
  have hcore' := congrArg Prod.snd (ConfigReloader.apply_ok hbuilt)
  let u : System Unit :=
    { core := (s.core.apply w.platform.env movedConfig).2, stage := .idle,
      result := some (s.core.apply w.platform.env movedConfig).1 }
  have hremoved : (stateKeys s.core.runtime.config \ stateKeys movedConfig).card = 1 := by
    rw [show s.core.runtime.config = soloConfig none [] from hconfig]
    decide +kernel
  obtain ⟨first, -, hs⟩ := startup_ok hcore
  have hpending : u.core.pendingGc = 1 := by
    show (s.core.apply w.platform.env movedConfig).2.pendingGc = 1
    rw [hcore']
    simp only [hremoved, spawnGc]
    rw [hs]
    rfl
  have hconfig' : u.collect.config = publishedConfig movedConfig s.core.runtime.config := by
    show (s.core.apply w.platform.env movedConfig).2.runtime.config = _
    rw [hcore']
    rfl
  have hgc : (machine soloCalls).step u .gc = some u.collect := by
    show (if 0 < u.core.pendingGc then some u.collect else none) = _
    rw [if_pos (by omega)]
  have hall : (machine soloCalls).run s (.reload w :: List.replicate n .advance ++ [.gc]) =
      some u.collect := Machine.run_concat_eq_some _ |>.2 ⟨u, hrun, hgc⟩
  have hnone : u.collect.core.pendingGc = 0 := by
    show u.core.pendingGc - 1 = 0
    omega
  refine ⟨s, u.collect, n, hconfig, hall, ?_⟩
  have hexact := ((gc_exact ⟨s, _, hstart, hall⟩).1 hnone).1 rfl
  rw [hconfig'] at hexact
  exact hexact

end Reload

end Moaray
