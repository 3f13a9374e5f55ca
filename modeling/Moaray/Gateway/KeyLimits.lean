import Moaray.Gateway.Coherence

/-!
# Per-key limits across reloads

Limits are written on key entries and buckets are kept under key ids.  Validation does not reject
two entries of one id, so the two agree only while ids tell limited entries apart.

* `Installed` — what installing the entries owes to one of them; `installed_foldl`.
* `Tracked` — the buckets of a running reload; `tracked_of_reachable`.
* `WellKept` — no bucket serves two ids, and each enforces the limit it names.
* `Steady` — a server whose reloads all bring the same key entries; `steady_run`.
* `key_limits` — between reloads, the published limits are the enforced ones if and only if the
  published entries are told apart by their ids.

A round of the installing loop leaves a bucket of the entry's own limit in place and replaces one
of another.  Of two entries of one id the later round wins, so a later entry can take the bucket of
an earlier one away; where ids are distinct nothing later touches it.  Reclaiming drops the ids no
entry limits.

**Design.**  Between publication and reclaiming, a bucket may still be there whose id is no longer
limited.  `Tracked` says, stage by stage, which entries have theirs already and which ids may have
one, and requests that spend tokens in between change neither the map nor a limit.
-/

namespace Moaray

open Framework

variable {ρ : Type}

namespace Reload

variable {calls : ℕ → ℕ → Governed.Call} {s t : System ρ} {a : Action ρ}
  {buckets : Pool String TokenBucket} {keys : List KeyConfig}

/-! ## Entries and ids -/

/-- Two entries share an id only if neither is limited.  Entries of one id are then never installed
over one another. -/
def KeysApart (keys : List KeyConfig) : Prop :=
  keys.Pairwise fun k k' => k.id = k'.id → k.rateLimit = none ∧ k'.rateLimit = none

instance : Decidable (KeysApart keys) := inferInstanceAs (Decidable (keys.Pairwise _))

lemma KeysApart.eq_of_id (h : KeysApart keys) {k k' : KeyConfig} (hk : k ∈ keys) (hk' : k' ∈ keys)
    (hid : k.id = k'.id) (hlimit : k.rateLimit ≠ none) : k = k' := by
  have : Std.Symm fun k k' : KeyConfig =>
      k.id = k'.id → k.rateLimit = none ∧ k'.rateLimit = none :=
    ⟨fun _ _ hkk' hid' => (hkk' hid'.symm).symm⟩
  by_contra hne
  exact hlimit (List.Pairwise.forall h hk hk' hne hid).1

/-- An id is limited by some entry. -/
def Limited (keys : List KeyConfig) (id : String) : Prop :=
  ∃ k ∈ keys, k.rateLimit ≠ none ∧ k.id = id

lemma liveKey_iff {config : RuntimeConfig} {id : String} :
    StatefulState.liveKey config id = true ↔ Limited config.keys id := by
  simp [StatefulState.liveKey, Limited, Option.isSome_iff_ne_none]

/-! ## Installing buckets -/

/-- What installing the entries `keys` owes to one of them: a bucket, and one of its own limit
if the other entries of its id do not ask for another. -/
structure Installed (keys : List KeyConfig) (buckets : Pool String TokenBucket) (k : KeyConfig) :
    Prop where
  present : k.rateLimit ≠ none → (buckets.lookup k.id).isSome
  meets : ∀ limit, k.rateLimit = some limit →
    (∀ k' ∈ keys, k'.id = k.id → ∀ limit', k'.rateLimit = some limit' → limit' = limit) →
    Pool.Meets TokenBucket.limit buckets k.id limit

lemma installKey_cases (acc : Pool String TokenBucket × ℕ) (k : KeyConfig) :
    (k.rateLimit = none ∧ (StatefulState.installKey acc k).1 = acc.1) ∨
    ∃ limit, k.rateLimit = some limit ∧ (StatefulState.installKey acc k).1 =
      acc.1.ensure TokenBucket.limit TokenBucket.new k.id limit := by
  rw [StatefulState.installKey_eq]
  cases hk : k.rateLimit with
  | none => exact .inl ⟨rfl, by simp [StatefulState.keyRequest, hk]⟩
  | some limit => exact .inr ⟨limit, rfl, by simp [StatefulState.keyRequest, hk]⟩

/-- A round serves its entry and takes nothing from the ones before it. -/
lemma Installed.install {acc : Pool String TokenBucket × ℕ} {k : KeyConfig} (hk : k ∈ keys)
    {done : List KeyConfig} (hdone : ∀ k' ∈ done, Installed keys acc.1 k') :
    ∀ k' ∈ done ++ [k], Installed keys (StatefulState.installKey acc k).1 k' := by
  intro k' hk'
  rcases installKey_cases acc k with ⟨hnone, hsame⟩ | ⟨limit, hsome, hens⟩
  · rw [hsame]
    rcases List.mem_append.1 hk' with hin | hlast
    · exact hdone k' hin
    · obtain rfl : k' = k := by simpa using hlast
      exact ⟨fun h => absurd hnone h, fun l hl => by simp [hnone] at hl⟩
  · rw [hens]
    rcases List.mem_append.1 hk' with hin | hlast
    · have hprev := hdone k' hin
      refine ⟨fun h => Pool.lookup_ensure_isSome_of_isSome (hprev.present h), ?_⟩
      intro limit' hlimit' hagree
      have hmeets := hprev.meets limit' hlimit' hagree
      by_cases hid : k.id = k'.id
      · have hl : limit = limit' := hagree k hk hid limit hsome
        rw [hid, hl, Pool.ensure_of_meets hmeets]
        exact hmeets
      · exact hmeets.mono Pool.cells_prefix_ensure
          (Pool.lookup_ensure_ne TokenBucket.limit TokenBucket.new acc.1 limit hid)
    · obtain rfl : k' = k := by simpa using hlast
      refine ⟨fun _ => Pool.lookup_ensure_isSome, ?_⟩
      intro limit' hlimit' _
      obtain rfl : limit = limit' := by simpa [hsome] using hlimit'
      exact Pool.meets_ensure TokenBucket.limit_new

lemma installed_foldl {acc : Pool String TokenBucket × ℕ} {done todo : List KeyConfig}
    (hkeys : keys = done ++ todo) (hdone : ∀ k ∈ done, Installed keys acc.1 k) :
    ∀ k ∈ keys, Installed keys (todo.foldl StatefulState.installKey acc).1 k := by
  induction todo generalizing acc done with
  | nil =>
      rw [List.append_nil] at hkeys
      exact fun k hk => hdone k (hkeys ▸ hk)
  | cons k todo ih =>
      have hk : k ∈ keys := by simp [hkeys]
      exact ih (by simp [hkeys]) (Installed.install hk hdone)

lemma foldl_installKey (acc : Pool String TokenBucket × ℕ) (ks : List KeyConfig) :
    (ks.foldl StatefulState.installKey acc).1 =
      acc.1.ensureAll TokenBucket.limit TokenBucket.new
        (ks.filterMap StatefulState.keyRequest) := by
  induction ks generalizing acc with
  | nil => rfl
  | cons k ks ih =>
      rw [List.foldl_cons, ih]
      rcases installKey_cases acc k with ⟨hnone, hsame⟩ | ⟨limit, hsome, hens⟩
      · rw [hsame, List.filterMap_cons_none (by simp [StatefulState.keyRequest, hnone])]
      · have hrequest : StatefulState.keyRequest k = some (k.id, limit) := by
          simp [StatefulState.keyRequest, hsome]
        rw [hens, List.filterMap_cons_some hrequest, Pool.ensureAll_cons]

/-- Spending a token changes neither the map nor a limit. -/
lemma Installed.update {r : ℕ} {b : TokenBucket} {answer : GovernorAnswer} {k : KeyConfig}
    (hr : buckets.deref r = some b) (h : Installed keys buckets k) :
    Installed keys (buckets.update r (b.check answer).1) k where
  present := h.present
  meets limit hlimit hagree :=
    (Pool.meets_update hr (b.limit_check answer)).2 (h.meets limit hlimit hagree)

/-- Reclaiming the ids nobody limits leaves the limited ones alone. -/
lemma lookup_retain_limited {config : RuntimeConfig} {id : String}
    (h : Limited config.keys id) :
    (buckets.retain (StatefulState.liveKey config)).lookup id = buckets.lookup id := by
  rw [Pool.lookup_retain, if_pos (liveKey_iff.2 h)]

lemma Installed.retain {config : RuntimeConfig} {k : KeyConfig} (hk : k ∈ config.keys)
    (h : Installed config.keys buckets k) :
    Installed config.keys (buckets.retain (StatefulState.liveKey config)) k where
  present hlimit := by
    rw [lookup_retain_limited ⟨k, hk, hlimit, rfl⟩]
    exact h.present hlimit
  meets limit hlimit hagree := by
    have hlookup : (buckets.retain (StatefulState.liveKey config)).lookup k.id =
        buckets.lookup k.id :=
      lookup_retain_limited ⟨k, hk, by simp [hlimit], rfl⟩
    exact Pool.Meets.mono (P := buckets) List.prefix_rfl hlookup (h.meets limit hlimit hagree)

/-! ## The buckets of a running reload -/

/-- Only limited ids have buckets. -/
def OnlyLimited (keys : List KeyConfig) (buckets : Pool String TokenBucket) : Prop :=
  ∀ id, (buckets.lookup id).isSome → Limited keys id

/-- What holds of the buckets at every statement of a reload.  While they are installed, entries the
loop is through with are tracked, and the others as they may be. -/
def Tracked (buckets : Pool String TokenBucket) (keys : List KeyConfig) : Stage → Prop
  | .idle | .ensuring _ _ => (∀ k ∈ keys, Installed keys buckets k) ∧ OnlyLimited keys buckets
  | .installing job _ _ todo =>
      ∃ done, job.new.keys = done ++ todo ∧ ∀ k ∈ done, Installed job.new.keys buckets k
  | .published job _ _ | .remembered job _ =>
      keys = job.new.keys ∧ ∀ k ∈ keys, Installed keys buckets k

lemma Tracked.update {stage : Stage} {r : ℕ} {b : TokenBucket} {answer : GovernorAnswer}
    (hr : buckets.deref r = some b) (h : Tracked buckets keys stage) :
    Tracked (buckets.update r (b.check answer).1) keys stage := by
  cases stage with
  | idle | ensuring => exact ⟨fun k hk => (h.1 k hk).update hr, h.2⟩
  | installing job built outcome todo =>
      obtain ⟨done, hkeys, hdone⟩ := h
      exact ⟨done, hkeys, fun k hk => (hdone k hk).update hr⟩
  | published | remembered => exact ⟨h.1, fun k hk => (h.2 k hk).update hr⟩

/-- Every statement of a reload keeps track of the buckets, and so does a request that spends a
token in between. -/
theorem Tracked.step (h : Moves calls s a t) (hs : Tracked s.buckets s.config.keys s.stage) :
    Tracked t.buckets t.config.keys t.stage := by
  cases h with
  | reject hidle hread =>
      rw [hidle] at hs
      exact hs
  | start hstage | ensure hstage | remember hstage =>
      rw [hstage] at hs
      exact hs
  | @build job hstage =>
      rw [hstage] at hs
      unfold System.build
      split
      · exact hs
      · exact ⟨[], rfl, nofun⟩
  | @install job built outcome k todo hstage =>
      rw [hstage] at hs
      obtain ⟨done, hkeys, hdone⟩ := hs
      have hk : k ∈ job.new.keys := by simp [hkeys]
      have hacc : ∀ k' ∈ done, Installed job.new.keys (s.buckets, 0).1 k' := hdone
      exact ⟨done ++ [k], by simp [hkeys], Installed.install hk hacc⟩
  | @publish job built outcome hstage =>
      rw [hstage] at hs
      obtain ⟨done, hkeys, hdone⟩ := hs
      rw [List.append_nil] at hkeys
      exact ⟨rfl, fun k hk => hdone k (hkeys ▸ hk)⟩
  | @finish job outcome hstage =>
      rw [hstage] at hs
      obtain ⟨hkeys, hinst⟩ := hs
      rw [hkeys] at hinst
      show Tracked (s.buckets.retain (StatefulState.liveKey job.new)) s.config.keys .idle
      rw [hkeys]
      refine ⟨fun k hk => (hinst k hk).retain hk, ?_⟩
      intro id hid
      rw [Pool.lookup_retain] at hid
      split at hid
      · rename_i hlive
        exact liveKey_iff.1 hlive
      · cases hid
  | collect hidle hgc =>
      rw [hidle] at hs
      show Tracked s.buckets s.config.keys s.stage
      rw [hidle]
      exact hs
  | upstream hr ha => exact hs
  | @request presented answer =>
      rw [System.config_request, System.stage_request]
      rcases s.request_cases presented answer with heq | ⟨r, b, hr, heq⟩ <;> rw [heq]
      · exact hs
      · exact hs.update hr

lemma Started.tracked (h : Started s) : Tracked s.buckets s.config.keys s.stage := by
  obtain ⟨P, config, path, -, hcore, hidle, -⟩ := h
  obtain ⟨built, -, hs⟩ := startup_ok hcore
  rw [hidle]
  show Tracked s.core.stateful.perKey s.core.runtime.config.keys .idle
  rw [hs]
  let empty : Pool String TokenBucket × ℕ := (Pool.empty, 0)
  show Tracked (config.keys.foldl StatefulState.installKey empty).1 config.keys .idle
  refine ⟨installed_foldl (List.nil_append _).symm nofun, ?_⟩
  intro id hid
  by_contra hnot
  have hfree : ∀ i ∈ config.keys.filterMap StatefulState.keyRequest, i.1 ≠ id := by
    rintro i hi rfl
    obtain ⟨k, hk, hki⟩ := List.mem_filterMap.1 hi
    obtain ⟨limit, hlimit, rfl⟩ := Option.map_eq_some_iff.1 hki
    exact hnot ⟨k, hk, by simp [hlimit], rfl⟩
  rw [foldl_installKey, Pool.lookup_ensureAll_of_not_mem hfree] at hid
  simp [empty, Pool.lookup, Pool.empty] at hid

/-- The buckets are tracked in every reachable state, also while a reload is at its statements for
keys. -/
theorem tracked_of_reachable (h : (machine calls).Reachable Started s) :
    Tracked s.buckets s.config.keys s.stage :=
  h.invariant (I := fun s => Tracked s.buckets s.config.keys s.stage) (fun _ hs => hs.tracked)
    fun _ _ _ hs hstep => Tracked.step (moves_of_step hstep) hs

/-! ## Objects -/

/-- No bucket serves two ids, and each enforces the limit it names.  Both hold of every state,
whatever entries share an id. -/
structure WellKept (buckets : Pool String TokenBucket) : Prop where
  distinct : buckets.Distinct
  sound : ∀ r b, buckets.deref r = some b → b.Sound

lemma WellKept.install {acc : Pool String TokenBucket × ℕ} (h : WellKept acc.1) (k : KeyConfig) :
    WellKept (StatefulState.installKey acc k).1 := by
  rcases installKey_cases acc k with ⟨-, hsame⟩ | ⟨limit, -, hens⟩
  · rw [hsame]
    exact h
  · rw [hens]
    exact ⟨h.distinct.ensure _ _, Pool.forall_deref_ensure h.sound (TokenBucket.sound_new limit)⟩

lemma WellKept.update {r : ℕ} {b : TokenBucket} {answer : GovernorAnswer}
    (hr : buckets.deref r = some b) (h : WellKept buckets) :
    WellKept (buckets.update r (b.check answer).1) := by
  have hsound : (b.check answer).1.Sound := (h.sound r b hr).check answer
  exact ⟨h.distinct.update _ _, Pool.forall_deref_update _ _ _ h.sound hsound⟩

lemma WellKept.step (h : Moves calls s a t) (hs : WellKept s.buckets) : WellKept t.buckets := by
  cases h with
  | build hstage =>
      rw [System.buckets_build]
      exact hs
  | install hstage =>
      have hacc : WellKept (s.buckets, 0).1 := hs
      exact hacc.install _
  | finish hstage => exact ⟨hs.distinct.retain _, hs.sound⟩
  | @request presented answer =>
      rcases s.request_cases presented answer with heq | ⟨r, b, hr, heq⟩ <;> rw [heq]
      · exact hs
      · exact hs.update hr
  | _ => exact hs

theorem wellKept_of_reachable (h : (machine calls).Reachable Started s) : WellKept s.buckets := by
  refine h.invariant (I := fun s => WellKept s.buckets) ?_
    fun _ _ _ hs hstep => WellKept.step (moves_of_step hstep) hs
  rintro s ⟨P, config, path, -, hcore, -⟩
  obtain ⟨built, -, hs⟩ := startup_ok hcore
  show WellKept s.core.stateful.perKey
  rw [hs]
  have hloop : ∀ (ks : List KeyConfig) (acc : Pool String TokenBucket × ℕ), WellKept acc.1 →
      WellKept (ks.foldl StatefulState.installKey acc).1 := by
    intro ks
    induction ks with
    | nil => exact fun _ hacc => hacc
    | cons k ks ih => exact fun acc hacc => ih _ (hacc.install k)
  refine hloop config.keys (Pool.empty, 0) ⟨Pool.distinct_empty, ?_⟩
  intro r b hr
  simp [Pool.deref, Pool.empty] at hr

/-! ## Reloads that bring the same entries -/

namespace Stage

lemma forall_job_idle {p : Job → Prop} : ∀ job, Stage.idle.job = some job → p job := by
  intro job hjob
  cases hjob

/-- The entries a running reload has not installed yet. -/
def pendingKeys : Stage → List KeyConfig
  | .installing _ _ _ todo => todo
  | _ => []

end Stage

/-- A server whose configuration and running reload have the entries `keys`, each limited one
with a bucket of its limit, under the map of `B`. -/
structure Steady (keys : List KeyConfig) (B : Pool String TokenBucket) (s : System ρ) : Prop where
  lookup : ∀ id, s.buckets.lookup id = B.lookup id
  config : s.config.keys = keys
  meets : ∀ k ∈ keys, ∀ limit, k.rateLimit = some limit →
    Pool.Meets TokenBucket.limit s.buckets k.id limit
  limited : OnlyLimited keys s.buckets
  job : ∀ job, s.stage.job = some job → job.new.keys = keys
  todo : ∀ k ∈ s.stage.pendingKeys, k ∈ keys

section Steady

variable {B : Pool String TokenBucket}

lemma Steady.of_buckets (h : Steady keys B s) (hbuckets : t.buckets = s.buckets)
    (hconfig : t.config.keys = keys)
    (hjob : ∀ job, t.stage.job = some job → job.new.keys = keys)
    (htodo : ∀ k ∈ t.stage.pendingKeys, k ∈ keys) : Steady keys B t where
  lookup id := by rw [hbuckets, h.lookup]
  config := hconfig
  meets k hk limit hlimit := by
    rw [hbuckets]
    exact h.meets k hk limit hlimit
  limited := by
    rw [hbuckets]
    exact h.limited
  job := hjob
  todo := htodo

/-- Installing an entry that has its bucket does nothing. -/
lemma Steady.install (h : Steady keys B s) {k : KeyConfig} (hk : k ∈ keys) :
    (StatefulState.installKey (s.buckets, 0) k).1 = s.buckets := by
  rcases installKey_cases (s.buckets, 0) k with ⟨-, hsame⟩ | ⟨limit, hsome, hens⟩
  · exact hsame
  · rw [hens]
    exact Pool.ensure_of_meets (h.meets k hk limit hsome)

/-- Reclaiming under the same entries keeps every lookup. -/
lemma Steady.retain (h : Steady keys B s) {new : RuntimeConfig} (hnew : new.keys = keys)
    (id : String) :
    (s.buckets.retain (StatefulState.liveKey new)).lookup id = s.buckets.lookup id := by
  by_cases hid : Limited keys id
  · exact lookup_retain_limited (hnew ▸ hid)
  · have hnone : s.buckets.lookup id = none := by
      by_contra hsome
      exact hid (h.limited id (Option.isSome_iff_ne_none.2 hsome))
    rw [Pool.lookup_retain, hnone]
    split <;> rfl

/-- A step that reads no other entries keeps the server steady, and changes the content of a
bucket only if it is a request. -/
theorem Steady.step (h : Moves calls s a t) (hs : Steady keys B s)
    (ha : ∀ w new, a = .reload w → readConfig w s.core.configPath = .ok new → new.keys = keys) :
    Steady keys B t ∧ ((∀ presented answer, a ≠ .request presented answer) →
      ∀ r, t.buckets.deref r = s.buckets.deref r) := by
  cases h with
  | reject hidle hread =>
      exact ⟨hs.of_buckets rfl hs.config Stage.forall_job_idle nofun, fun _ _ => rfl⟩
  | @start w new hidle hread =>
      refine ⟨hs.of_buckets rfl hs.config ?_ nofun, fun _ _ => rfl⟩
      rintro job ⟨⟩
      exact ha w new rfl hread
  | @ensure job m todo hstage =>
      refine ⟨hs.of_buckets rfl hs.config ?_ nofun, fun _ _ => rfl⟩
      rintro job' ⟨⟩
      exact hs.job job (by rw [hstage]; rfl)
  | @build job hstage =>
      have hjob : job.new.keys = keys := hs.job job (by rw [hstage]; rfl)
      refine ⟨hs.of_buckets (s.buckets_build job) ?_ ?_ ?_, ?_⟩
      · rw [s.config_build job, hs.config]
      · unfold System.build
        split
        · exact Stage.forall_job_idle
        · rintro job' ⟨⟩
          exact hjob
      · unfold System.build
        split
        · nofun
        · intro k hk
          rw [← hjob]
          exact hk
      · intro _ r
        rw [s.buckets_build job]
  | @install job built outcome k todo hstage =>
      have htodo : ∀ k' ∈ k :: todo, k' ∈ keys := by
        intro k' hk'
        refine hs.todo k' ?_
        rw [hstage]
        exact hk'
      have hsame := hs.install (htodo k (List.mem_cons_self ..))
      refine ⟨hs.of_buckets hsame hs.config ?_ ?_, ?_⟩
      · rintro job' ⟨⟩
        exact hs.job job (by rw [hstage]; rfl)
      · exact fun k' hk' => htodo k' (List.mem_cons_of_mem _ hk')
      · intro _ r
        rw [System.buckets_goto, System.buckets_withBuckets, hsame]
  | @publish job built outcome hstage =>
      have hjob : job.new.keys = keys := hs.job job (by rw [hstage]; rfl)
      refine ⟨hs.of_buckets rfl hjob ?_ nofun, fun _ _ => rfl⟩
      rintro job' ⟨⟩
      exact hjob
  | @remember job built outcome hstage =>
      refine ⟨hs.of_buckets rfl hs.config ?_ nofun, fun _ _ => rfl⟩
      rintro job' ⟨⟩
      exact hs.job job (by rw [hstage]; rfl)
  | @finish job outcome hstage =>
      have hlookup := hs.retain (hs.job job (by rw [hstage]; rfl))
      refine ⟨⟨fun id => (hlookup id).trans (hs.lookup id), hs.config, ?_, ?_,
        Stage.forall_job_idle, nofun⟩, fun _ _ => rfl⟩
      · intro k hk limit hlimit
        exact Pool.Meets.mono (P := s.buckets) List.prefix_rfl (hlookup k.id)
          (hs.meets k hk limit hlimit)
      · intro id hid
        rw [System.buckets_finish, hlookup id] at hid
        exact hs.limited id hid
  | collect hidle hgc =>
      refine ⟨hs.of_buckets rfl hs.config ?_ ?_, fun _ _ => rfl⟩
      · exact hs.job
      · exact hs.todo
  | upstream hr ha' =>
      exact ⟨hs.of_buckets rfl hs.config hs.job hs.todo, fun _ _ => rfl⟩
  | @request presented answer =>
      refine ⟨?_, fun hno => absurd rfl (hno presented answer)⟩
      rcases s.request_cases presented answer with heq | ⟨r, b, hr, heq⟩ <;> rw [heq]
      · exact hs
      · refine ⟨hs.lookup, hs.config, ?_, hs.limited, hs.job, hs.todo⟩
        intro k hk limit hlimit
        exact (Pool.meets_update hr (b.limit_check answer)).2 (hs.meets k hk limit hlimit)

/-- A run whose reloads bring the same entries leaves every bucket in place, and without
requests it leaves their contents alone. -/
theorem steady_run {as : List (Action ρ)} (hs : Steady keys B s)
    (hrun : (machine calls).run s as = some t)
    (hreads : ∀ w new, .reload w ∈ as → readConfig w s.core.configPath = .ok new →
      new.keys = keys) :
    Steady keys B t ∧ ((∀ presented answer, .request presented answer ∉ as) →
      ∀ r, t.buckets.deref r = s.buckets.deref r) := by
  induction as generalizing s with
  | nil =>
      obtain rfl : s = t := by simpa using hrun
      exact ⟨hs, fun _ _ => rfl⟩
  | cons a as ih =>
      obtain ⟨u, hu, hrest⟩ := (machine calls).run_cons_eq_some.1 hrun
      have hmoves := moves_of_step hu
      obtain ⟨hsteady, hone⟩ := hs.step hmoves (by
        rintro w new rfl hread
        exact hreads w new (List.mem_cons_self ..) hread)
      obtain ⟨hend, htail⟩ := ih hsteady hrest (by
        intro w new hw hread
        rw [configPath_step hmoves] at hread
        exact hreads w new (List.mem_cons_of_mem _ hw) hread)
      refine ⟨hend, ?_⟩
      intro hno r
      have hhead : ∀ presented answer, a ≠ .request presented answer := by
        rintro presented answer rfl
        exact hno presented answer (List.mem_cons_self ..)
      have hrest' : ∀ presented answer, Action.request presented answer ∉ as :=
        fun presented answer hmem => hno presented answer (List.mem_cons_of_mem _ hmem)
      rw [htail hrest' r, hone hhead r]

end Steady

/-! ## Limits as configured -/

/-- What checking a key id amounts to: one bucket of this limit, or none. -/
def CheckedAgainst (stateful : StatefulState ρ) (keyId : String) : Option RateLimit → Prop
  | some limit => ∃ b, stateful.perKey.find keyId = some b ∧ b.limit = limit ∧
      b.quota = (TokenBucket.new limit).quota ∧
      ∀ answer, (stateful.checkKeyLimit keyId answer).2 = (b.check answer).2
  | none => ∀ answer, stateful.checkKeyLimit keyId answer = (stateful, .ok ())

/-- The per-key limits are the configured ones: each entry is checked against its own, and the
entries that are not limited against none. -/
structure LimitsAsConfigured (calls : ℕ → ℕ → Governed.Call) (s : System ρ) : Prop where
  /-- A request that authenticates as an entry is checked against exactly its limit. -/
  own : ∀ presented k, findKey s.config.keys presented = some k →
    CheckedAgainst s.core.stateful k.id k.rateLimit
  /-- No bucket is shared by two entries. -/
  apart : ∀ (i j : ℕ) (hi : i < s.config.keys.length) (hj : j < s.config.keys.length), i ≠ j →
    ∀ r, s.buckets.lookup s.config.keys[i].id = some r →
      s.buckets.lookup s.config.keys[j].id ≠ some r
  /-- Reloads that bring the same entries leave every bucket in place, and without requests
  they leave their contents alone. -/
  stable : ∀ as t, (machine calls).run s as = some t →
    (∀ w new, .reload w ∈ as → readConfig w s.core.configPath = .ok new →
      new.keys = s.config.keys) →
    (∀ id, t.buckets.lookup id = s.buckets.lookup id) ∧
      ((∀ presented answer, .request presented answer ∉ as) →
        ∀ r, t.buckets.deref r = s.buckets.deref r)

/-- Entries told apart by their ids are served to their own limits. -/
lemma meets_of_apart (h : KeysApart keys) (hinst : ∀ k ∈ keys, Installed keys buckets k)
    {k : KeyConfig} (hk : k ∈ keys) {limit : RateLimit} (hlimit : k.rateLimit = some limit) :
    Pool.Meets TokenBucket.limit buckets k.id limit := by
  refine (hinst k hk).meets limit hlimit ?_
  intro k' hk' hid limit' hlimit'
  obtain rfl : k' = k := h.eq_of_id hk' hk hid (by simp [hlimit'])
  simpa [hlimit] using hlimit'.symm

/-- Their bucket is the one a request of theirs is checked against. -/
lemma checkedAgainst_of_apart (h : KeysApart s.config.keys)
    (hinst : ∀ k ∈ s.config.keys, Installed s.config.keys s.buckets k)
    (honly : OnlyLimited s.config.keys s.buckets) (hkept : WellKept s.buckets) {k : KeyConfig}
    (hk : k ∈ s.config.keys) : CheckedAgainst s.core.stateful k.id k.rateLimit := by
  cases hlimit : k.rateLimit with
  | none =>
      have hnone : s.core.stateful.perKey.lookup k.id = none := by
        by_contra hsome
        obtain ⟨k', hk', hlimit', hid⟩ := honly k.id (Option.isSome_iff_ne_none.2 hsome)
        obtain rfl := h.eq_of_id hk' hk hid hlimit'
        exact hlimit' hlimit
      intro answer
      simp [StatefulState.checkKeyLimit, hnone]
  | some limit =>
      obtain ⟨r, b, hr, hb, rfl⟩ := meets_of_apart h hinst hk hlimit
      refine ⟨b, Pool.find_eq_some.2 ⟨r, hr, hb⟩, rfl, hkept.sound r b hb, ?_⟩
      intro answer
      have hr' : s.core.stateful.perKey.lookup k.id = some r := hr
      have hb' : s.core.stateful.perKey.deref r = some b := hb
      simp [StatefulState.checkKeyLimit, hr', hb']

/-- Between reloads, the per-key limits are the configured ones if and only if no two published
entries share an id, unless none of them is limited. -/
theorem key_limits (h : (machine calls).Reachable Started s) (hidle : s.stage = .idle) :
    LimitsAsConfigured calls s ↔ KeysApart s.config.keys := by
  have htracked := tracked_of_reachable h
  rw [hidle] at htracked
  obtain ⟨hinst, honly⟩ := htracked
  have hkept := wellKept_of_reachable h
  constructor
  · intro hlimits
    refine List.pairwise_iff_getElem.2 ?_
    intro i j hi hj hij hid
    have hfree : ∀ k ∈ s.config.keys, k.id = s.config.keys[i].id → k.rateLimit = none := by
      intro k hk hkid
      by_contra hlimit
      obtain ⟨r, hr⟩ := Option.isSome_iff_exists.1 ((hinst k hk).present hlimit)
      rw [hkid] at hr
      exact hlimits.apart i j hi hj hij.ne r hr (hid ▸ hr)
    exact ⟨hfree _ (List.getElem_mem hi) rfl, hfree _ (List.getElem_mem hj) hid.symm⟩
  · intro hapart
    refine ⟨?_, ?_, ?_⟩
    · intro presented k hk
      exact checkedAgainst_of_apart hapart hinst honly hkept (findKey_mem hk)
    · intro i j hi hj hij r hri hrj
      have hid := hkept.distinct _ _ r hri hrj
      have hfree : s.config.keys[i].rateLimit = none := by
        rcases Nat.lt_or_gt_of_ne hij with hlt | hgt
        · exact (List.pairwise_iff_getElem.1 hapart i j hi hj hlt hid).1
        · exact (List.pairwise_iff_getElem.1 hapart j i hj hi hgt hid.symm).2
      obtain ⟨k, hk, hlimit, hkid⟩ := honly s.config.keys[i].id (by rw [hri]; rfl)
      have heq := hapart.eq_of_id hk (List.getElem_mem hi) hkid hlimit
      rw [heq] at hlimit
      exact hlimit hfree
    · intro as t hrun hreads
      have hsteady : Steady s.config.keys s.buckets s := by
        refine ⟨fun _ => rfl, rfl, fun k hk limit => meets_of_apart hapart hinst hk, honly, ?_, ?_⟩
        · rw [hidle]
          exact Stage.forall_job_idle
        · rw [hidle]
          nofun
      obtain ⟨hend, hcontent⟩ := steady_run hsteady hrun hreads
      exact ⟨hend.lookup, hcontent⟩

/-! ### Two key entries -/

/-- Two entries with secrets and limits of their own; the second has the given id. -/
def pairDocs (id : String) : List KeyDoc :=
  [{ id := "team", keyEnv := some "INBOUND_A", keySha256 := none, allowModels := ["opus"],
     rateLimit := some { rps := 1, burst := none } },
   { id, keyEnv := some "INBOUND_B", keySha256 := none, allowModels := ["opus"],
     rateLimit := some { rps := 2, burst := none } }]

def firstOfPair : KeyConfig where
  id := "team"
  secret := .plain "token-a"
  allowModels := ["opus"]
  rateLimit := some { rps := 1, burst := 1 }

def pairKeys (id : String) : List KeyConfig :=
  [firstOfPair,
   { id, secret := .plain "token-b", allowModels := ["opus"],
     rateLimit := some { rps := 2, burst := 2 } }]

lemma validate_pair (id : String) :
    validate soloPlatform (soloDoc none (pairDocs id)) = .ok (soloConfig none (pairKeys id)) := rfl

/-- Under ids of their own, the limits of two entries are the enforced ones. -/
theorem key_limits_two_ids :
    ∃ s : System Unit, Started s ∧ s.config.keys = pairKeys "ops" ∧
      LimitsAsConfigured soloCalls s := by
  obtain ⟨s, hcore, hidle, hresult, hconfig⟩ :=
    exists_started (ρ := Unit) ⟨_, validate_pair "ops"⟩ "moaray.yaml"
  have hstart : Started s := ⟨soloPlatform, _, _, ⟨_, validate_pair "ops"⟩, hcore, hidle, hresult⟩
  have hreach : (machine soloCalls).Reachable Started s := ⟨s, [], hstart, rfl⟩
  have hkeys : s.config.keys = pairKeys "ops" := by
    rw [hconfig]
    rfl
  refine ⟨s, hstart, hkeys, (key_limits hreach hidle).2 ?_⟩
  rw [hkeys]
  decide

/-- Validation accepts two entries of one id with limits of one and of two requests a second;
the first entry is then checked against the bucket of the second. -/
theorem one_id_two_limits :
    (∃ s : System Unit, (machine soloCalls).Reachable Started s ∧ s.stage = .idle ∧
      findKey s.config.keys "token-a" = some firstOfPair ∧
      s.core.stateful.perKey.find firstOfPair.id =
        some (TokenBucket.new { rps := 2, burst := 2 })) ∧
    ¬ ∀ s : System Unit, (machine soloCalls).Reachable Started s → s.stage = .idle →
      LimitsAsConfigured soloCalls s := by
  obtain ⟨s, hcore, hidle, hresult, hconfig⟩ :=
    exists_started (ρ := Unit) ⟨_, validate_pair "team"⟩ "moaray.yaml"
  have hstart : Started s :=
    ⟨soloPlatform, _, _, ⟨_, validate_pair "team"⟩, hcore, hidle, hresult⟩
  have hreach : (machine soloCalls).Reachable Started s := ⟨s, [], hstart, rfl⟩
  have hfind : findKey s.config.keys "token-a" = some firstOfPair := by
    rw [hconfig]
    decide +kernel
  have hbucket : s.core.stateful.perKey.find firstOfPair.id =
      some (TokenBucket.new { rps := 2, burst := 2 }) := by
    obtain ⟨built, -, hs⟩ := startup_ok hcore
    rw [hs]
    show (StatefulState.fromConfig (soloConfig none (pairKeys "team")) :
      StatefulState Unit).perKey.find "team" = some (TokenBucket.new { rps := 2, burst := 2 })
    decide +kernel
  refine ⟨⟨s, hreach, hidle, hfind, hbucket⟩, ?_⟩
  intro hall
  obtain ⟨b, hb, hlimit, -, -⟩ := (hall s hreach hidle).own "token-a" firstOfPair hfind
  rw [hbucket] at hb
  cases hb
  revert hlimit
  decide

end Reload

end Moaray
