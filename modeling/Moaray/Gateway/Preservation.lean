import Moaray.Gateway.Coherence

/-!
# Reloads preserve live protection state

The slot of an upstream identity survives every reload that asks for the same governance or does
not mention the identity, until a collection fires while the identity is absent; a reload that asks
for another governance replaces it by a fresh slot.

* `Ahead` — what a running reload is going to ask for at an identity.
* `Keeps` — a run that gives no reason to replace the slot of an identity.
* `Kept.step`, `kept_of_run` — the slot such a run keeps.
* `fresh_of_reload` — the slot a reload with other settings builds.
* `reload_preserves` — both, with what traffic does to the slots in the meantime.

A run starts and ends between reloads, but others may have begun and ended within it, and at any of
its steps one may be half done.  `Kept` is what carries through: the identity is served by the
object it had, and whatever reload is running has asked for the same settings or is about to.  The
object itself is changed by its own traffic only, so its breaker, its permits and its bucket go on
from where they were.

**Design.**  A reload with other settings does not replace the slot at its first statement but when
it visits the identity.  `Due` is the wait until then, and `exists_leaving` finds the step that
ends it, which builds the fresh slot.  The old object stays with the providers that hold it.
-/

namespace Moaray

open Framework

variable {ρ : Type}

namespace Reload

/-- The configuration has a model of this upstream identity. -/
def Has (config : RuntimeConfig) (key : String) : Prop :=
  ∃ m ∈ Table.rows config.models, m.stateKey = key

/-- The configuration has a model of this upstream identity with these settings. -/
def Asks (config : RuntimeConfig) (key : String) (g : UpstreamGovernance) : Prop :=
  ∃ m ∈ Table.rows config.models, m.stateKey = key ∧
    UpstreamGovernance.of m config.server.breaker = g

lemma Asks.has {config : RuntimeConfig} {key : String} {g : UpstreamGovernance}
    (h : Asks config key g) : Has config key := by
  obtain ⟨m, hm, hkey, -⟩ := h
  exact ⟨m, hm, hkey⟩

/-- Validation has every model of an identity ask for the same settings. -/
lemma Asks.agree {P : Platform} {config : RuntimeConfig} {key : String} {g : UpstreamGovernance}
    (hvalid : Validated P config) (h : Asks config key g) {m : ModelConfig}
    (hm : m ∈ Table.rows config.models) (hkey : m.stateKey = key) :
    UpstreamGovernance.of m config.server.breaker = g := by
  obtain ⟨m', hm', hkey', rfl⟩ := h
  exact StatefulState.of_eq_of_stateKey hvalid hm hm' (hkey.trans hkey'.symm) _

variable {calls : ℕ → ℕ → Governed.Call} {s t : System ρ} {a : Action ρ} {key : String}
  {g : UpstreamGovernance} {r : ℕ}

/-! ## What a running reload asks for -/

/-- The running reload, if any, is going to ask for these settings at the identity. -/
def Ahead (key : String) (g : UpstreamGovernance) (stage : Stage) : Prop :=
  ∀ job todo, stage = .ensuring job todo → ∀ m ∈ todo, m.stateKey = key →
    UpstreamGovernance.of m job.new.server.breaker = g

/-- What a running reload is going to ask for stays so, if every configuration that is read asks for
it or does not have the identity. -/
lemma Ahead.step (h : Moves calls s a t)
    (hreads : ∀ w new, a = .reload w → readConfig w s.core.configPath = .ok new →
      Asks new key g ∨ ¬ Has new key) (hs : Ahead key g s.stage) : Ahead key g t.stage := by
  intro job todo ht m hm hkey
  cases h with
  | start hidle hread =>
      cases ht
      rcases hreads _ _ rfl hread with hasks | hnot
      · exact hasks.agree (validated_of_readConfig hread) hm hkey
      · exact absurd ⟨m, hm, hkey⟩ hnot
  | @ensure job' m' todo' hstage =>
      cases ht
      exact hs job _ hstage m (List.mem_cons_of_mem _ hm) hkey
  | @build job' hstage =>
      unfold System.build at ht
      split at ht <;> cases ht
  | collect hidle hgc => exact hs job todo ht m hm hkey
  | upstream hr ha => exact hs job todo ht m hm hkey
  | request =>
      rw [System.stage_request] at ht
      exact hs job todo ht m hm hkey
  | _ => cases ht

/-! ## A slot that is kept -/

/-- The identity is served by object `r`, of governance `g`, and the reload that is running, if
any, will find nothing to change there. -/
structure Kept (key : String) (g : UpstreamGovernance) (r : ℕ) (s : System ρ) : Prop where
  lookup : s.slots.lookup key = some r
  meets : Pool.Meets governanceOf s.slots key g
  ahead : ∀ job todo, s.stage = .ensuring job todo → ∀ m ∈ todo, m.stateKey = key →
    UpstreamGovernance.of m job.new.server.breaker = g

lemma Kept.of_slots (hs : Kept key g r s) (hslots : t.slots = s.slots)
    (hahead : Ahead key g t.stage) : Kept key g r t where
  lookup := by rw [hslots, hs.lookup]
  meets := by
    rw [hslots]
    exact hs.meets
  ahead := hahead

/-- A step gives no reason to replace the slot: a reload it starts asks for the same settings or
does not have the identity, and a collection it makes finds the identity published. -/
structure KeepsStep (key : String) (g : UpstreamGovernance) (s : System ρ) (a : Action ρ) :
    Prop where
  reads : ∀ w new, a = .reload w → readConfig w s.core.configPath = .ok new →
    Asks new key g ∨ ¬ Has new key
  collects : a = .gc → Has s.config key

/-- One step that gives no reason to replace the slot keeps it.  Reasons are a file that asks for
other limits, and a collection while the identity is not configured. -/
theorem Kept.step (h : Moves calls s a t) (ha : KeepsStep key g s a) (hs : Kept key g r s) :
    Kept key g r t := by
  have hahead : Ahead key g t.stage := Ahead.step h ha.reads hs.ahead
  cases h with
  | @ensure job m todo hstage =>
      by_cases hkey : m.stateKey = key
      · have hof := hs.ahead job _ hstage m (List.mem_cons_self ..) hkey
        refine hs.of_slots ?_ hahead
        rw [hkey, hof, System.slots_goto, System.slots_withSlots, Pool.ensure_of_meets hs.meets]
      · have hne := Pool.lookup_ensure_ne governanceOf freshSlot s.slots
          (UpstreamGovernance.of m job.new.server.breaker) hkey
        exact ⟨hne.trans hs.lookup, hs.meets.mono Pool.cells_prefix_ensure hne, hahead⟩
  | @build job hstage => exact hs.of_slots (s.slots_build job) hahead
  | collect hidle hgc =>
      obtain ⟨m, hm, rfl⟩ := ha.collects rfl
      have hlive : s.collect.slots.lookup m.stateKey = s.slots.lookup m.stateKey :=
        lookup_retain_live hm
      have hmeets : Pool.Meets governanceOf s.collect.slots m.stateKey g :=
        Pool.Meets.mono (P := s.slots) List.prefix_rfl hlive hs.meets
      exact ⟨hlive.trans hs.lookup, hmeets, hahead⟩
  | upstream hr ha' =>
      exact ⟨hs.lookup, (Pool.meets_update hr (Governed.governanceOf_step ha')).2 hs.meets,
        hahead⟩
  | @request presented answer => exact hs.of_slots (s.slots_request presented answer) hahead
  | _ => exact hs.of_slots rfl hahead

/-- A run that gives no reason to replace the slot of an identity: every reload it starts asks
for the same settings or does not have the identity, and no collection fires while the identity
is absent from the published configuration. -/
structure Keeps (calls : ℕ → ℕ → Governed.Call) (key : String) (g : UpstreamGovernance)
    (s : System ρ) (as : List (Action ρ)) : Prop where
  reads : ∀ w new, .reload w ∈ as → readConfig w s.core.configPath = .ok new →
    Asks new key g ∨ ¬ Has new key
  collects : ∀ pre u v, (machine calls).Takes s as pre u .gc v → Has u.config key

/-- A run that gives no reason to replace the slot keeps it, step by step.  The slot goes on as the
traffic over it left it. -/
theorem kept_of_run {as : List (Action ρ)} (hrun : (machine calls).run s as = some t)
    (hkeeps : Keeps calls key g s as) (hs : Kept key g r s) : Kept key g r t := by
  induction as generalizing s with
  | nil =>
      obtain rfl : s = t := by simpa using hrun
      exact hs
  | cons a as ih =>
      obtain ⟨u, hu, hrest⟩ := (machine calls).run_cons_eq_some.1 hrun
      have hmoves := moves_of_step hu
      have hone : KeepsStep key g s a := by
        refine ⟨?_, ?_⟩
        · rintro w new rfl hread
          exact hkeeps.reads w new (List.mem_cons_self ..) hread
        · rintro rfl
          exact hkeeps.collects [] s u ⟨as, rfl, rfl, hu⟩
      have htail : Keeps calls key g u as := by
        refine ⟨?_, ?_⟩
        · intro w new hw hread
          rw [configPath_step hmoves] at hread
          exact hkeeps.reads w new (List.mem_cons_of_mem _ hw) hread
        · intro pre v x htakes
          have hfirst : (machine calls).run s [a] = some u := by simpa using hu
          exact hkeeps.collects ([a] ++ pre) v x (htakes.prepend hfirst)
      exact ih hrest htail (hs.step hmoves hone)

/-! ## A slot that is replaced -/

/-- A reload is on its way to an identity whose slot is not of the settings it asks for. -/
def Due (key : String) (g : UpstreamGovernance) (s : System ρ) : Prop :=
  ∃ job todo, s.stage = .ensuring job todo ∧ ¬ Pool.Meets governanceOf s.slots key g ∧
    (∃ m ∈ todo, m.stateKey = key) ∧
    ∀ m ∈ todo, m.stateKey = key → UpstreamGovernance.of m job.new.server.breaker = g

lemma Due.leaves (h : Moves calls s a t) (hs : Due key g s) (ht : ¬ Due key g t) :
    s.slots.deref s.slots.cells.length = none ∧ traffic s.slots.cells.length a = none ∧
      t.slots.deref s.slots.cells.length = some (freshSlot g) ∧
      Kept key g s.slots.cells.length t := by
  obtain ⟨job, todo, hstage, hnot, ⟨m₀, hm₀, hkey₀⟩, hagree⟩ := hs
  cases h with
  | reject hidle | start hidle | collect hidle =>
      rw [hidle] at hstage
      cases hstage
  | @ensure job' m todo' hstage' =>
      rw [hstage'] at hstage
      cases hstage
      have hrest : ∀ m' ∈ todo', m'.stateKey = key →
          UpstreamGovernance.of m' job.new.server.breaker = g :=
        fun m' hm' => hagree m' (List.mem_cons_of_mem _ hm')
      by_cases hkey : m.stateKey = key
      · have hof := hagree m (List.mem_cons_self ..) hkey
        have hslots : ((s.withSlots (s.slots.ensure governanceOf freshSlot m.stateKey
            (UpstreamGovernance.of m job.new.server.breaker))).goto (.ensuring job todo')).slots =
              s.slots.insert key (freshSlot g) := by
          rw [System.slots_goto, System.slots_withSlots, hkey, hof, Pool.ensure_of_not_meets hnot]
        have hmeets : Pool.Meets governanceOf (s.slots.insert key (freshSlot g)) key g :=
          ⟨_, _, Pool.lookup_insert_same _ _ _, Pool.deref_insert_new _ _ _, rfl⟩
        refine ⟨by simp [Pool.deref], rfl, ?_, ?_, ?_, ?_⟩
        · rw [hslots, Pool.deref_insert_new]
        · rw [hslots, Pool.lookup_insert_same]
        · rwa [hslots]
        · rintro job' todo'' ⟨⟩
          exact hrest
      · refine absurd ⟨job, todo', rfl, ?_, ⟨m₀, ?_, hkey₀⟩, hrest⟩ ht
        · intro hmeets
          exact hnot (hmeets.anti Pool.cells_prefix_ensure
            (Pool.lookup_ensure_ne governanceOf freshSlot s.slots _ hkey))
        · rcases List.mem_cons.1 hm₀ with rfl | hin
          · exact absurd hkey₀ hkey
          · exact hin
  | build hstage' =>
      rw [hstage'] at hstage
      cases hstage
      cases hm₀
  | install hstage' | publish hstage' | remember hstage' | finish hstage' =>
      rw [hstage'] at hstage
      cases hstage
  | upstream hr ha =>
      refine absurd ⟨job, todo, hstage, ?_, ⟨m₀, hm₀, hkey₀⟩, hagree⟩ ht
      intro hmeets
      exact hnot ((Pool.meets_update hr (Governed.governanceOf_step ha)).1 hmeets)
  | request =>
      refine absurd ⟨job, todo, ?_, ?_, ⟨m₀, hm₀, hkey₀⟩, hagree⟩ ht
      · rw [System.stage_request, hstage]
      · rwa [System.slots_request]

lemma length_cells_step (h : Moves calls s a t) :
    s.slots.cells.length ≤ t.slots.cells.length := by
  cases h with
  | ensure hstage => exact Pool.cells_prefix_ensure.length_le
  | build hstage => rw [System.slots_build]
  | upstream hr ha => exact (Pool.length_update _ _ _).ge
  | request => rw [System.slots_request]
  | _ => exact le_rfl

lemma length_cells_run {as : List (Action ρ)} (h : (machine calls).run s as = some t) :
    s.slots.cells.length ≤ t.slots.cells.length :=
  (machine calls).invariant_of_run (I := fun u => s.slots.cells.length ≤ u.slots.cells.length)
    (fun _ _ _ hu hstep => hu.trans (length_cells_step (moves_of_step hstep))) le_rfl h

/-- A stretch of a run in which no reload starts and no collection fires. -/
def Quiet (as : List (Action ρ)) : Prop := ∀ a ∈ as, a ≠ .gc ∧ ∀ w, a ≠ .reload w

/-- A reload that asks for settings the identity's slot does not have, or for an identity
without a slot, builds a fresh slot of those settings; nothing but its own traffic touches it. -/
theorem fresh_of_reload {w : World} {new : RuntimeConfig} (hidle : s.stage = .idle)
    (hread : readConfig w s.core.configPath = .ok new) (hasks : Asks new key g)
    (hnot : ¬ Pool.Meets governanceOf s.slots key g) {mid : List (Action ρ)}
    (hrun : (machine calls).run s (.reload w :: mid) = some t) (hquiet : Quiet mid)
    (ht : t.stage = .idle) :
    ∃ r slot, t.slots.lookup key = some r ∧ s.slots.cells.length ≤ r ∧
      t.slots.deref r = some slot ∧
      (Governed.machine (calls r)).run (freshSlot g) (mid.filterMap (traffic r)) = some slot := by
  obtain ⟨u, hu, hmid⟩ := (machine calls).run_cons_eq_some.1 hrun
  have hstart : u = s.goto (.ensuring { env := w.platform.env, new, prev := s.config }
      (Table.rows new.models)) := by
    have hstep : step calls s (.reload w) = some u := hu
    simp only [step, hidle, hread] at hstep
    exact (Option.some.inj hstep).symm
  subst hstart
  have hagree : ∀ m ∈ Table.rows new.models, m.stateKey = key →
      UpstreamGovernance.of m new.server.breaker = g :=
    fun m hm => hasks.agree (validated_of_readConfig hread) hm
  have hdue : Due key g (s.goto (.ensuring { env := w.platform.env, new, prev := s.config }
      (Table.rows new.models))) := ⟨_, _, rfl, hnot, hasks.has, hagree⟩
  have hdone : ¬ Due key g t := by
    rintro ⟨job, todo, hstage, -⟩
    rw [ht] at hstage
    cases hstage
  obtain ⟨pre, x, b, y, ⟨post, rfl, hpre, hb⟩, hx, hy⟩ :=
    (machine calls).exists_leaving hdue hmid hdone
  obtain ⟨habsent, hnone, hfresh, hkept⟩ := hx.leaves (moves_of_step hb) hy
  have hpost : (machine calls).run y post = some t := by
    rw [Machine.run_append, hpre, Option.bind_some, Machine.run_cons, hb] at hmid
    exact hmid
  have hkeeps : Keeps calls key g y post := by
    refine ⟨?_, ?_⟩
    · intro w' new' hw'
      exact absurd rfl ((hquiet (.reload w') (by simp [hw'])).2 w')
    · intro pre' v v' htakes
      exact absurd rfl (hquiet .gc (by simp [htakes.mem])).1
  have hend := kept_of_run hpost hkeeps hkept
  obtain ⟨slot, hslot, hslotrun⟩ := run_deref hpost hfresh
  have hlength := length_cells_run hpre
  rw [System.slots_goto] at hlength
  refine ⟨_, slot, hend.lookup, hlength, hslot, ?_⟩
  -- Before the slot was built there was no call over it.
  have hbefore := traffic_eq_nil hpre habsent
  rw [List.filterMap_append, hbefore, List.nil_append, List.filterMap_cons_none hnone]
  exact hslotrun

/-! ## Preservation -/

/-- Between reloads, an identity of the published configuration is kept so far. -/
lemma kept_of_idle (hcons : Consistent s.slots s.config s.stage) (hidle : s.stage = .idle)
    (hasks : Asks s.config key g) : ∃ r, Kept key g r s := by
  rw [hidle] at hcons
  obtain ⟨m, hm, rfl, rfl⟩ := hasks
  obtain ⟨r, slot, hr, hslot, hgov⟩ := hcons m hm
  refine ⟨r, hr, ⟨r, slot, hr, hslot, hgov⟩, ?_⟩
  intro job todo hstage
  rw [hidle] at hstage
  cases hstage

/-- Ensuring a validated configuration's models in any order keeps the same objects and leaves
the same contents. -/
lemma ensureModel_perm {P : Platform} {new : RuntimeConfig} (hvalid : Validated P new)
    {ms : List ModelConfig} (hperm : ms.Perm (Table.rows new.models))
    (stateful : StatefulState ρ) (k : String) :
    (∀ q < stateful.perUpstream.cells.length,
      ((ms.foldl (StatefulState.ensureModel new.server.breaker) stateful.perUpstream).lookup k =
          some q ↔
        (stateful.ensureForConfig new).upstream k = some q)) ∧
    (ms.foldl (StatefulState.ensureModel new.server.breaker) stateful.perUpstream).find k =
      (stateful.ensureForConfig new).perUpstream.find k := by
  let item := fun m : ModelConfig => (m.stateKey, UpstreamGovernance.of m new.server.breaker)
  have hens : (stateful.ensureForConfig new).perUpstream =
      stateful.perUpstream.ensureAll governanceOf freshSlot
        ((Table.rows new.models).map item) :=
    StatefulState.foldl_ensureModel _ _ _
  have hagree : ∀ i ∈ ms.map item, ∀ j ∈ ms.map item, i.1 = j.1 → i.2 = j.2 := by
    intro i hi j hj hij
    obtain ⟨m, hm, rfl⟩ := List.mem_map.1 hi
    obtain ⟨m', hm', rfl⟩ := List.mem_map.1 hj
    exact StatefulState.of_eq_of_stateKey hvalid (hperm.mem_iff.1 hm) (hperm.mem_iff.1 hm') hij _
  show (∀ q < _, (_ ↔ (stateful.ensureForConfig new).perUpstream.lookup k = some q)) ∧ _
  rw [StatefulState.foldl_ensureModel, hens]
  refine ⟨?_, ?_⟩
  · intro q hq
    exact Pool.lookup_ensureAll_perm governanceOf_freshSlot (hperm.map item) hagree hq
  · exact Pool.find_ensureAll_perm governanceOf_freshSlot (hperm.map item) hagree

/-- Reloads preserve live protection state.  Between reloads, let the published configuration
ask for settings `g` at an identity.  Its slot `r` is of these settings, and after every run that
asks for nothing else there and collects nothing while the identity is absent, `r` still serves
it and has seen its own traffic and nothing else.  If the next reload asks for other settings,
the slot after it is a fresh one of those settings.  And a configuration's models may be
visited in any order: the same objects are kept, with the same contents. -/
theorem reload_preserves (h : (machine calls).Reachable Started s) (hidle : s.stage = .idle)
    (hasks : Asks s.config key g) :
    (∃ r slot, s.core.stateful.upstream key = some r ∧ s.slots.deref r = some slot ∧
      governanceOf slot = g ∧
      ∀ as t, (machine calls).run s as = some t → Keeps calls key g s as →
        t.core.stateful.upstream key = some r ∧
        (∃ slot', t.slots.deref r = some slot' ∧
          (Governed.machine (calls r)).run slot (as.filterMap (traffic r)) = some slot') ∧
        (t.stage = .idle → ∀ w new g' mid u, readConfig w t.core.configPath = .ok new →
          Asks new key g' → g' ≠ g → (machine calls).run t (.reload w :: mid) = some u →
          Quiet mid → u.stage = .idle →
          ∃ r' slot', u.core.stateful.upstream key = some r' ∧ t.slots.cells.length ≤ r' ∧
            u.slots.deref r' = some slot' ∧
            (Governed.machine (calls r')).run (freshSlot g') (mid.filterMap (traffic r')) =
              some slot')) ∧
    ∀ P new (ms : List ModelConfig), Validated P new → ms.Perm (Table.rows new.models) → ∀ k,
      (∀ q < s.slots.cells.length,
        ((ms.foldl (StatefulState.ensureModel new.server.breaker) s.slots).lookup k = some q ↔
          (s.core.stateful.ensureForConfig new).upstream k = some q)) ∧
      (ms.foldl (StatefulState.ensureModel new.server.breaker) s.slots).find k =
        (s.core.stateful.ensureForConfig new).perUpstream.find k := by
  refine ⟨?_, fun P new ms hvalid hperm k => ensureModel_perm hvalid hperm _ k⟩
  obtain ⟨r, hkept⟩ := kept_of_idle (consistent_of_reachable h) hidle hasks
  obtain ⟨q, slot, hq, hslot, hgov⟩ := hkept.meets
  obtain rfl : r = q := by
    rw [hkept.lookup] at hq
    exact Option.some.inj hq
  refine ⟨r, slot, hkept.lookup, hslot, hgov, ?_⟩
  intro as t hrun hkeeps
  have hend := kept_of_run hrun hkeeps hkept
  refine ⟨hend.lookup, run_deref hrun hslot, ?_⟩
  intro ht w new g' mid u hread hasks' hne hreload hquiet hu
  have hnot : ¬ Pool.Meets governanceOf t.slots key g' := by
    rintro ⟨r₁, slot₁, hr₁, hslot₁, rfl⟩
    obtain ⟨r₂, slot₂, hr₂, hslot₂, rfl⟩ := hend.meets
    rw [hr₁] at hr₂
    cases hr₂
    rw [hslot₁] at hslot₂
    cases hslot₂
    exact hne rfl
  exact fresh_of_reload ht hread hasks' hnot hreload hquiet hu

/-- The one-model configuration asks for its own settings. -/
lemma asks_solo {config : RuntimeConfig} {rateLimit : Option RateLimit} {keys : List KeyConfig}
    (h : config = soloConfig rateLimit keys) :
    Asks config (soloModel none).stateKey
      (UpstreamGovernance.of (soloModel rateLimit) config.server.breaker) := by
  subst h
  exact ⟨soloModel rateLimit, by simp [rows_solo], rfl, rfl⟩

/-- Reloading the same file keeps the slot; reloading a file with a rate limit replaces it. -/
theorem reload_preserves_limited :
    ∃ (s t u : System Unit) (r r' n n' : ℕ), s.config = soloConfig none [] ∧
      (machine soloCalls).run s
          (.reload (soloWorld (soloDoc none [])) :: List.replicate n .advance) = some t ∧
      (machine soloCalls).run t
          (.reload (soloWorld (soloDoc (some { rps := 5, burst := none }) [])) ::
            List.replicate n' .advance) = some u ∧
      s.core.stateful.upstream (soloModel none).stateKey = some r ∧
      t.core.stateful.upstream (soloModel none).stateKey = some r ∧
      u.core.stateful.upstream (soloModel none).stateKey = some r' ∧ r < r' := by
  obtain ⟨s, hcore, hidle, hresult, hconfig⟩ :=
    exists_started (ρ := Unit) ⟨_, validate_solo⟩ "moaray.yaml"
  have hstart : Started s := ⟨soloPlatform, _, _, ⟨_, validate_solo⟩, hcore, hidle, hresult⟩
  have hreach : (machine soloCalls).Reachable Started s := ⟨s, [], hstart, rfl⟩
  let same := soloWorld (soloDoc none [])
  let limited := soloWorld (soloDoc (some { rps := 5, burst := none }) [])
  have hsame : ∀ path, readConfig same path = .ok (soloConfig none []) := fun _ => rfl
  have hlimited : ∀ path, readConfig limited path =
      .ok (soloConfig (some { rps := 5, burst := 5 }) []) := fun _ => rfl
  obtain ⟨n, hrun⟩ := run_apply soloCalls hidle (hsame s.core.configPath)
  let t : System Unit :=
    { core := (s.core.apply same.platform.env (soloConfig none [])).2, stage := .idle,
      result := some (s.core.apply same.platform.env (soloConfig none [])).1 }
  have hkeeps : Keeps soloCalls (soloModel none).stateKey
      (UpstreamGovernance.of (soloModel none) s.config.server.breaker) s
      (.reload same :: List.replicate n .advance) := by
    refine ⟨?_, ?_⟩
    · intro w new hw hread
      obtain rfl : w = same := by simpa [List.mem_replicate] using hw
      obtain rfl : soloConfig none [] = new := by simpa [hsame] using hread
      rw [hconfig]
      exact .inl (asks_solo rfl)
    · intro pre u v htakes
      have hmem := htakes.mem
      simp [List.mem_replicate] at hmem
  obtain ⟨⟨r, slot, hr, -, -, hpreserve⟩, -⟩ :=
    reload_preserves hreach hidle (asks_solo hconfig)
  obtain ⟨hkept, -, hnext⟩ := hpreserve _ _ hrun hkeeps
  obtain ⟨n', hrun'⟩ := run_apply soloCalls (s := t) rfl (hlimited _)
  have hquiet : Quiet (List.replicate n' (Action.advance : Action Unit)) := by
    intro a ha
    obtain rfl := List.eq_of_mem_replicate ha
    exact ⟨nofun, nofun⟩
  have hne : UpstreamGovernance.of (soloModel (some { rps := 5, burst := 5 }))
      (soloConfig (some { rps := 5, burst := 5 }) []).server.breaker ≠
        UpstreamGovernance.of (soloModel none) s.config.server.breaker := by
    rw [hconfig]
    decide
  obtain ⟨r', slot', hr', hle, -, -⟩ :=
    hnext rfl limited _ _ _ _ (hlimited _) (asks_solo rfl) hne hrun' hquiet rfl
  exact ⟨s, t, _, r, r', n, n', hconfig, hrun, hrun', hr, hkept, hr',
    lt_of_lt_of_le (Pool.lt_of_lookup hkept) hle⟩

end Reload

end Moaray
