import Moaray.Framework.Permits
import Moaray.Gateway.GcExact
import Moaray.Gateway.Preservation

/-!
# The concurrency cap across reloads

Every capped slot keeps account of its permits: an inner attempt in flight and a streamed body not
yet dropped hold one each.  A collection takes a slot out of the map and leaves its permits where
they are, so an identity that comes back is served by a second semaphore beside the first.

* `Governed.Capped`, `Governed.Capped.step` — the account of one slot, over every interleaving.
* `StoodFor` — the slots an identity has had in the course of a run.
* `TakesAlone` — no permit is taken while one of an earlier or later slot is out.
* `alone_of_run` — in such a run the permits out are all of one slot.
* `cap_across_reloads` — such runs keep the cap, and a run is one if no collection finds the
  identity absent.
* `cap_exceeded` — a run that is not, and exceeds it.

For one slot the cap is an account: the permits that are left and the calls that hold one add up to
the cap, whatever the interleaving.  For an identity it is a question of how many of its slots have
permits out at once.  If at most one, the calls and bodies of the identity are those of that slot.

**Design.**  Bodies outlive the call that opened them and are counted with the attempts.  The slots
an identity has had are named by their positions in the pool, which never go away, so a body opened
over a slot that was collected long ago is still found where it was.

`CollectsPresent` is the condition an operator can arrange: while no collection runs with the
identity absent from the configuration, the identity keeps its slot, and there is only one.
-/

namespace Moaray

open Framework

variable {ρ : Type}

/-! ## One slot -/

namespace Governed

/-- Whether an admitted call holds a permit: not if the cap it was admitted under is unbounded. -/
def Phase.permit : Phase ρ → Option Bool
  | .idle | .checked _ | .queued _ | .rejected _ _ | .over _ => none
  | .admitted _ permit _ | .attempting _ permit _ | .sleeping _ permit _ _
  | .finishing _ permit _ => some permit
  | .releasing _ | .streaming _ => some true

lemma permit_resume (c : Call) (guard : BreakerGuard) (permit : Bool) (attempt : UInt32)
    (result : Except Error ρ) : (resume c guard permit attempt result).permit = some permit := by
  unfold resume passthrough chat passthroughStream retryLoop
  cases c.method <;> cases result <;> simp only [] <;> (try split) <;> rfl

lemma permit_afterGuard (c : Call) (outcome : Option (Except Error ρ)) :
    (afterGuard c true outcome).permit = some true := by
  unfold afterGuard
  rw [if_pos rfl]
  split <;> rfl

/-- The calls over a slot that hold one of its permits. -/
def State.holders (s : State ρ) : Set ℕ := {c | (s.calls c).permit = some true}

section Holders

variable {s : State ρ} {c : ℕ} {p : Phase ρ}

lemma State.holders_goto_same (h : p.permit = (s.calls c).permit) :
    (s.goto c p).holders = s.holders := by
  ext d
  by_cases hd : d = c
  · subst hd
    simp [State.holders, h]
  · simp [State.holders, State.calls_goto_ne s c d p hd]

lemma State.holders_goto_take (h : p.permit = some true) :
    (s.goto c p).holders = insert c s.holders := by
  ext d
  by_cases hd : d = c
  · subst hd
    simp [State.holders, h]
  · simp [State.holders, State.calls_goto_ne s c d p hd, hd]

lemma State.holders_goto_give (h : p.permit = none) :
    (s.goto c p).holders = s.holders \ {c} := by
  ext d
  by_cases hd : d = c
  · subst hd
    simp [State.holders, h]
  · simp [State.holders, State.calls_goto_ne s c d p hd, hd]

end Holders

/-- A slot of `n` permits keeps account of them: those that are left and those that calls hold are
`n` together, and every call it admitted has one. -/
structure Capped (n : ℕ) (s : State ρ) : Prop where
  accounts : ∃ sem, s.upstream.concurrency.sem = some sem ∧ Accounts n sem.available s.holders
  admitted : ∀ c, (s.calls c).permit ≠ some false

section Capped

variable {calls : ℕ → Call} {n : ℕ} {s t : State ρ} {a : Action ρ} {c : ℕ} {p : Phase ρ}

/-- A call that keeps what it holds leaves the account as it is. -/
lemma Capped.goto (hs : Capped n s) (hk : t.upstream.concurrency = s.upstream.concurrency)
    (hcalls : t.calls = s.calls) (hp : p.permit = (s.calls c).permit) :
    Capped n (t.goto c p) where
  accounts := by
    obtain ⟨sem, hsem, haccounts⟩ := hs.accounts
    refine ⟨sem, by rw [← hsem]; exact congrArg _ hk, ?_⟩
    have hholders : (t.goto c p).holders = s.holders := by
      rw [State.holders_goto_same (hp.trans (by rw [hcalls]))]
      simp only [State.holders, hcalls]
    rwa [hholders]
  admitted d := by
    by_cases hd : d = c
    · subst hd
      rw [State.calls_goto_self, hp]
      exact hs.admitted d
    · rw [State.calls_goto_ne t c d p hd, hcalls]
      exact hs.admitted d

/-- The semaphore hands a permit to a call that had none. -/
lemma Capped.acquire {k : Concurrency} {permit : Bool} (hs : Capped n s)
    (hc : (s.calls c).permit = none) (hk : s.upstream.concurrency.acquire = some (k, permit))
    (hp : p.permit = some permit) : Capped n ((s.withConcurrency k).goto c p) := by
  obtain ⟨sem, hsem, haccounts⟩ := hs.accounts
  obtain ⟨hpos, rfl, rfl⟩ : 0 < sem.available ∧
      { sem := some { available := sem.available - 1 } } = k ∧ true = permit := by
    unfold Concurrency.acquire at hk
    rw [hsem] at hk
    by_cases hpos : 0 < sem.available
    · simpa [hpos] using hk
    · simp [hpos] at hk
  refine ⟨⟨_, rfl, ?_⟩, ?_⟩
  · rw [State.holders_goto_take hp]
    have hfree : c ∉ s.holders := by simp [State.holders, hc]
    exact haccounts.take hpos hfree
  · intro d
    by_cases hd : d = c
    · subst hd
      simp [hp]
    · rw [State.calls_goto_ne _ c d p hd]
      exact hs.admitted d

lemma Capped.release (hs : Capped n s) (hc : (s.calls c).permit = some true)
    (hp : p.permit = none) :
    Capped n ((s.withConcurrency s.upstream.concurrency.release).goto c p) := by
  obtain ⟨sem, hsem, haccounts⟩ := hs.accounts
  refine ⟨⟨{ available := sem.available + 1 }, ?_, ?_⟩, ?_⟩
  · show s.upstream.concurrency.release.sem = _
    simp [Concurrency.release, hsem]
  · rw [State.holders_goto_give hp]
    have hheld : c ∈ s.holders := hc
    exact haccounts.give hheld
  · intro d
    by_cases hd : d = c
    · subst hd
      simp [hp]
    · rw [State.calls_goto_ne _ c d p hd]
      exact hs.admitted d

/-- Every step keeps the account of the permits. -/
theorem Capped.step (hs : Capped n s) (h : Moves calls s a t) : Capped n t := by
  cases h with
  | enter hc hb | refuse hc hb => exact hs.goto rfl rfl (by rw [hc]; rfl)
  | pass hc hu | throttle hc hu =>
      exact hs.goto (concurrency_of_checkLimit hu) rfl (by rw [hc]; rfl)
  | acquire hc hk => exact hs.acquire (by rw [hc]; rfl) hk rfl
  | dropProbeGuard hc | begin hc | wake hc | leave hc | abandon hc | abandonSleep hc =>
      exact hs.goto rfl rfl (by rw [hc]; rfl)
  | complete hc => exact hs.goto rfl rfl (by rw [hc]; exact permit_resume ..)
  | @dropBreakerGuard c now guard permit outcome hc =>
      have hadmitted := hs.admitted c
      rw [hc] at hadmitted
      obtain rfl : permit = true := by simpa [Phase.permit] using hadmitted
      exact hs.goto rfl rfl (by rw [hc]; exact permit_afterGuard ..)
  | dropPermit hc | dropBody hc => exact hs.release (by rw [hc]; rfl) rfl

/-- Only a call that acquires comes to hold a permit. -/
lemma holders_step (h : Moves calls s a t) (ha : ∀ c, a ≠ .acquire c) : t.holders ⊆ s.holders := by
  intro d hd
  by_cases hne : d = a.call
  · subst hne
    replace hd : (t.calls a.call).permit = some true := hd
    show (s.calls a.call).permit = some true
    cases h with
    | acquire hc hk => exact absurd rfl (ha _)
    | complete hc =>
        rw [Action.call, State.calls_goto_self, permit_resume] at hd
        rw [Action.call, hc]
        exact hd
    | @dropBreakerGuard c now guard permit outcome hc =>
        rw [Action.call, State.calls_goto_self] at hd
        rw [Action.call, hc]
        cases permit with
        | true => rfl
        | false => cases hd
    | begin hc | wake hc | abandon hc | abandonSleep hc =>
        rw [Action.call, State.calls_goto_self] at hd
        rw [Action.call, hc]
        exact hd
    | _ =>
        rw [Action.call, State.calls_goto_self] at hd
        cases hd
  · have hsame := h.calls_of_ne hne
    simpa [State.holders, hsame] using hd

end Capped

end Governed

lemma holders_freshSlot (g : UpstreamGovernance) :
    (freshSlot g : Governed.State ρ).holders = ∅ := by
  ext c
  simp [Governed.State.holders, freshSlot, Governed.State.init, Governed.Phase.permit]

lemma capped_freshSlot {g : UpstreamGovernance} {n : UInt32} (hmax : g.maxConcurrency = some n)
    (hn : 0 < n) : Governed.Capped n.toNat (freshSlot g : Governed.State ρ) where
  accounts := by
    refine ⟨{ available := n.toNat }, by simp [freshSlot, Governed.State.init, Concurrency.new,
      hmax, hn], ?_⟩
    rw [holders_freshSlot]
    exact accounts_empty _
  admitted c := by simp [freshSlot, Governed.State.init, Governed.Phase.permit]

/-! ## The slots an identity has had -/

namespace Reload

variable {calls : ℕ → ℕ → Governed.Call} {s t : System ρ} {a : Action ρ} {as : List (Action ρ)}
  {key : String} {g : UpstreamGovernance} {n : UInt32} {r : ℕ}

/-- At some moment of the run, object `r` was the slot of the identity.  It need not be any more. -/
def StoodFor (calls : ℕ → ℕ → Governed.Call) (key : String) (s : System ρ) (as : List (Action ρ))
    (r : ℕ) : Prop :=
  ∃ pre u, pre <+: as ∧ (machine calls).run s pre = some u ∧ u.slots.lookup key = some r

/-- The calls that hold a permit of an object. -/
def System.holders (s : System ρ) (r : ℕ) : Set ℕ :=
  {c | ∃ slot, s.slots.deref r = some slot ∧ c ∈ slot.holders}

/-- The inner attempts in flight over the slots an identity has had, as pairs of slot and call. -/
def attempts (calls : ℕ → ℕ → Governed.Call) (key : String) (s : System ρ) (as : List (Action ρ))
    (t : System ρ) : Set (ℕ × ℕ) :=
  {p | StoodFor calls key s as p.1 ∧ ∃ slot guard permit attempt,
    t.slots.deref p.1 = some slot ∧ slot.calls p.2 = .attempting guard permit attempt}

/-- The streamed bodies from these slots that have not been dropped.  Each of them holds a permit if
its slot is capped. -/
def bodies (calls : ℕ → ℕ → Governed.Call) (key : String) (s : System ρ) (as : List (Action ρ))
    (t : System ρ) : Set (ℕ × ℕ) :=
  {p | StoodFor calls key s as p.1 ∧ ∃ slot response,
    t.slots.deref p.1 = some slot ∧ slot.calls p.2 = .streaming response}

/-- Every configuration that is applied, the first one included, asks for these settings at the
identity or does not have it. -/
structure Uniform (key : String) (g : UpstreamGovernance) (s : System ρ) (as : List (Action ρ)) :
    Prop where
  start : Asks s.config key g ∨ ¬ Has s.config key
  reads : ∀ w new, .reload w ∈ as → readConfig w s.core.configPath = .ok new →
    Asks new key g ∨ ¬ Has new key

/-- Whenever a call takes a permit of a slot of the identity, none of another slot it has had is
out. -/
def TakesAlone (calls : ℕ → ℕ → Governed.Call) (key : String) (s : System ρ)
    (as : List (Action ρ)) : Prop :=
  ∀ pre u q c v, (machine calls).Takes s as pre u (.upstream q (.acquire c)) v →
    StoodFor calls key s pre q → ∀ r, StoodFor calls key s pre r → r ≠ q → u.holders r = ∅

/-- No collection finds the identity absent from the published configuration. -/
def CollectsPresent (calls : ℕ → ℕ → Governed.Call) (key : String) (s : System ρ)
    (as : List (Action ρ)) : Prop :=
  ∀ pre u v, (machine calls).Takes s as pre u .gc v → Has u.config key

lemma Uniform.of_prefix {pre : List (Action ρ)} (h : Uniform key g s as) (hpre : pre <+: as) :
    Uniform key g s pre where
  start := h.start
  reads w new hw := h.reads w new (hpre.subset hw)

lemma StoodFor.of_prefix {pre : List (Action ρ)} (h : StoodFor calls key s pre r)
    (hpre : pre <+: as) : StoodFor calls key s as r := by
  obtain ⟨first, u, hfirst, hrun, hlookup⟩ := h
  exact ⟨first, u, hfirst.trans hpre, hrun, hlookup⟩

lemma stoodFor_nil : StoodFor calls key s [] r ↔ s.slots.lookup key = some r := by
  constructor
  · rintro ⟨pre, u, hpre, hrun, hlookup⟩
    obtain rfl := List.prefix_nil.1 hpre
    obtain rfl : s = u := by simpa using hrun
    exact hlookup
  · exact fun h => ⟨[], s, List.prefix_rfl, rfl, h⟩

/-- The last step can only add the slot the identity has after it. -/
lemma StoodFor.concat_cases (h : StoodFor calls key s (as ++ [a]) r)
    (hrun : (machine calls).run s (as ++ [a]) = some t) :
    StoodFor calls key s as r ∨ t.slots.lookup key = some r := by
  obtain ⟨pre, u, hpre, hu, hlookup⟩ := h
  rcases List.prefix_concat_iff.1 hpre with rfl | hpre
  · obtain rfl : t = u := by simpa [hrun] using hu
    exact .inr hlookup
  · exact .inl ⟨pre, u, hpre, hu, hlookup⟩

/-- An identity comes to a slot in one way: the running reload builds it. -/
lemma Moves.lookup_cases (h : Moves calls s a t) (ht : t.slots.lookup key = some r) :
    s.slots.lookup key = some r ∨
      ∃ job m todo, s.stage = .ensuring job (m :: todo) ∧ m.stateKey = key ∧
        t.slots.deref r = some (freshSlot (UpstreamGovernance.of m job.new.server.breaker)) := by
  cases h with
  | @ensure job m todo hstage =>
      let want := UpstreamGovernance.of m job.new.server.breaker
      by_cases hkey : m.stateKey = key
      · by_cases hmeets : Pool.Meets governanceOf s.slots m.stateKey want
        · left
          rwa [System.slots_goto, System.slots_withSlots, Pool.ensure_of_meets hmeets] at ht
        · right
          rw [System.slots_goto, System.slots_withSlots, Pool.ensure_of_not_meets hmeets, hkey,
            Pool.lookup_insert_same] at ht
          obtain rfl := Option.some.inj ht
          refine ⟨job, m, todo, hstage, hkey, ?_⟩
          rw [System.slots_goto, System.slots_withSlots, Pool.ensure_of_not_meets hmeets]
          exact Pool.deref_insert_new ..
      · left
        rwa [System.slots_goto, System.slots_withSlots,
          Pool.lookup_ensure_ne governanceOf freshSlot s.slots _ hkey] at ht
  | build hstage =>
      left
      rwa [System.slots_build] at ht
  | collect hidle hgc =>
      left
      have hretained : (s.slots.retain (StatefulState.liveUpstream s.config)).lookup key =
          some r := ht
      rw [Pool.lookup_retain] at hretained
      split at hretained
      · exact hretained
      · cases hretained
  | upstream hr ha => exact .inl ht
  | request =>
      left
      rwa [System.slots_request] at ht
  | _ => exact .inl ht

/-- After one more step there is no new slot, or the running reload has just built it. -/
lemma StoodFor.takes_cases {pre : List (Action ρ)} {u v : System ρ}
    (h : StoodFor calls key s (pre ++ [a]) r) (htakes : (machine calls).Takes s as pre u a v) :
    StoodFor calls key s pre r ∨
      ∃ job m todo, u.stage = .ensuring job (m :: todo) ∧ m.stateKey = key ∧
        v.slots.deref r = some (freshSlot (UpstreamGovernance.of m job.new.server.breaker)) := by
  obtain ⟨-, -, hpre, ha⟩ := htakes
  rcases h.concat_cases (Machine.run_concat_eq_some _ |>.2 ⟨u, hpre, ha⟩) with hold | hnow
  · exact .inl hold
  · rcases (moves_of_step ha).lookup_cases hnow with hlookup | hbuilt
    · exact .inl ⟨pre, u, List.prefix_rfl, hpre, hlookup⟩
    · exact .inr hbuilt

lemma StoodFor.exists_deref (h : StoodFor calls key s as r)
    (hrun : (machine calls).run s as = some t) : ∃ slot, t.slots.deref r = some slot := by
  obtain ⟨pre, u, ⟨post, rfl⟩, hpre, hlookup⟩ := h
  obtain ⟨u', hu', hpost⟩ := (machine calls).run_append_eq_some.1 hrun
  obtain rfl : u = u' := by simpa [hpre] using hu'
  obtain ⟨before, hbefore⟩ := Pool.exists_deref hlookup
  obtain ⟨slot, hslot, -⟩ := run_deref hpost hbefore
  exact ⟨slot, hslot⟩

/-! ## Its settings -/

/-- What the traffic of one step does to an object is not a change of its settings. -/
lemma Moves.governanceOf (h : Moves calls s a t) {slot slot' : Governed.State ρ}
    (hr : s.slots.deref r = some slot) (hr' : t.slots.deref r = some slot') :
    governanceOf slot' = governanceOf slot := by
  obtain ⟨after, hafter, hrun⟩ := h.deref hr
  obtain rfl : after = slot' := by simpa [hafter] using hr'
  exact (Governed.machine (calls r)).invariant_of_run
    (I := fun x => Moaray.governanceOf x = Moaray.governanceOf slot)
    (fun _ _ _ hx hstep => (Governed.governanceOf_step hstep).trans hx) rfl hrun

/-- At the start the identity has no slot but one of its settings. -/
lemma Started.settings (hstart : Started s) (hfirst : Asks s.config key g ∨ ¬ Has s.config key)
    {slot : Governed.State ρ} (hlookup : s.slots.lookup key = some r)
    (hslot : s.slots.deref r = some slot) : governanceOf slot = g := by
  have htidy := hstart.tidy
  have hcons := hstart.consistent
  obtain ⟨P, config, path, -, hcore, hidle, -⟩ := hstart
  have hpending : s.core.pendingGc = 0 := by
    obtain ⟨built, -, hs⟩ := startup_ok hcore
    rw [hs]
  rw [hidle] at htidy
  have hhas : Has s.config key := mem_stateKeys.1 (htidy hpending key (by simp [hlookup]))
  have hasks : Asks s.config key g := hfirst.resolve_right (not_not_intro hhas)
  obtain ⟨q, hkept⟩ := kept_of_idle hcons hidle hasks
  obtain ⟨q', slot', hq', hslot', hgov⟩ := hkept.meets
  obtain rfl : r = q' := by simpa [hlookup] using hq'
  obtain rfl : slot = slot' := by simpa [hslot] using hslot'
  exact hgov

/-- Every slot the identity has had is of the settings everyone asks for.  Slots that were replaced
and still have bodies to read are among them. -/
theorem settings_of_run (hstart : Started s) (hrun : (machine calls).run s as = some t)
    (huniform : Uniform key g s as) :
    (t.core.configPath = s.core.configPath ∧ Ahead key g t.stage) ∧
      ∀ r slot, StoodFor calls key s as r → t.slots.deref r = some slot →
        governanceOf slot = g := by
  refine Machine.invariant_of_takes (I := fun pre u =>
    (u.core.configPath = s.core.configPath ∧ Ahead key g u.stage) ∧
      ∀ r slot, StoodFor calls key s pre r → u.slots.deref r = some slot → governanceOf slot = g)
    hrun ?_ ?_
  · refine ⟨⟨rfl, ?_⟩, ?_⟩
    · obtain ⟨-, -, -, -, -, hidle, -⟩ := hstart
      intro job todo hstage
      rw [hidle] at hstage
      cases hstage
    · intro r slot hstood hslot
      exact hstart.settings huniform.start (stoodFor_nil.1 hstood) hslot
  · rintro pre u a v htakes ⟨⟨hpath, hahead⟩, hsettings⟩
    have hmoves := moves_of_step htakes.step
    refine ⟨⟨(configPath_step hmoves).trans hpath, ?_⟩, ?_⟩
    · refine hahead.step hmoves ?_
      rintro w new rfl hread
      rw [hpath] at hread
      exact huniform.reads w new htakes.mem hread
    · intro r slot hstood hslot
      rcases hstood.takes_cases htakes with hold | ⟨job, m, todo, hstage, hkey, hbuilt⟩
      · obtain ⟨before, hbefore⟩ := hold.exists_deref htakes.run
        rw [hmoves.governanceOf hbefore hslot]
        exact hsettings r before hold hbefore
      · rw [hbuilt] at hslot
        cases hslot
        exact hahead job _ hstage m (List.mem_cons_self ..) hkey

/-! ## Its permits -/

/-- Every capped slot keeps account of its permits. -/
def Accounted (slots : Pool String (Governed.State ρ)) : Prop :=
  ∀ r slot, slots.deref r = some slot → ∀ n, (governanceOf slot).maxConcurrency = some n →
    0 < n → Governed.Capped n.toNat slot

theorem accounted_of_reachable (h : (machine calls).Reachable Started s) : Accounted s.slots := by
  refine forall_deref_of_reachable (I := fun slot => ∀ n,
    (governanceOf slot).maxConcurrency = some n → 0 < n → Governed.Capped n.toNat slot) ?_ ?_ h
  · exact fun g n hmax hn => capped_freshSlot hmax hn
  · intro r slot b slot' hslot hstep n hmax hn
    rw [Governed.governanceOf_step hstep] at hmax
    exact (hslot n hmax hn).step (Governed.moves_of_step hstep)

/-- Only a call that acquires comes to hold a permit. -/
lemma Moves.holders_subset (h : Moves calls s a t) {slot : Governed.State ρ}
    (hr : s.slots.deref r = some slot) (ha : ∀ c, a ≠ .upstream r (.acquire c)) :
    t.holders r ⊆ s.holders r := by
  rintro d ⟨after, hafter, hd⟩
  refine ⟨slot, hr, ?_⟩
  obtain ⟨slot', hslot', hrun⟩ := h.deref hr
  obtain rfl : slot' = after := by simpa [hslot'] using hafter
  cases hb : traffic r a with
  | none =>
      rw [hb] at hrun
      obtain rfl : slot = slot' := by simpa using hrun
      exact hd
  | some b =>
      rw [hb] at hrun
      have hstep : (Governed.machine (calls r)).step slot b = some slot' := by simpa using hrun
      refine Governed.holders_step (Governed.moves_of_step hstep) ?_ hd
      rintro c rfl
      cases a with
      | upstream q b =>
          obtain ⟨rfl, rfl⟩ : q = r ∧ b = .acquire c := by simpa [traffic] using hb
          exact ha c rfl
      | _ => cases hb

/-- A slot that has just been built has no permit out. -/
lemma holders_fresh (h : s.slots.deref r = some (freshSlot g)) : s.holders r = ∅ := by
  refine Set.eq_empty_of_forall_notMem ?_
  rintro d ⟨slot, hslot, hd⟩
  obtain rfl : freshSlot g = slot := by simpa [h] using hslot
  rw [holders_freshSlot] at hd
  exact hd

section Alone

variable {pre : List (Action ρ)} {u v : System ρ} {q : ℕ}

/-- A slot with permits out after a step was there before it. -/
lemma StoodFor.of_holders (hr : StoodFor calls key s (pre ++ [a]) r)
    (htakes : (machine calls).Takes s as pre u a v) (hout : (v.holders r).Nonempty) :
    StoodFor calls key s pre r := by
  rcases hr.takes_cases htakes with hold | ⟨job, m, todo, -, -, hbuilt⟩
  · exact hold
  · rw [holders_fresh hbuilt] at hout
    exact absurd hout Set.not_nonempty_empty

/-- A slot that hands out a permit does so alone, and the others hand out none. -/
lemma TakesAlone.only {c : ℕ} (halone : TakesAlone calls key s as)
    (htakes : (machine calls).Takes s as pre u (.upstream q (.acquire c)) v)
    (hq : StoodFor calls key s pre q) (hr : StoodFor calls key s pre r)
    (hout : (v.holders r).Nonempty) : q = r := by
  by_contra hne
  obtain ⟨slot, hslot⟩ := hr.exists_deref htakes.run
  have hsub : v.holders r ⊆ u.holders r := by
    refine (moves_of_step htakes.step).holders_subset hslot ?_
    rintro d ⟨⟩
    exact hne rfl
  rw [halone pre u q c v htakes hq r hr (Ne.symm hne)] at hsub
  exact absurd (hout.mono hsub) Set.not_nonempty_empty

/-- A run in which permits are taken alone has them out of one slot at a time.  The bound of one
slot is then the bound of the identity. -/
theorem alone_of_run (hrun : (machine calls).run s as = some t)
    (halone : TakesAlone calls key s as) (hslots : ∀ r, s.holders r = ∅) :
    ∀ q r, StoodFor calls key s as q → StoodFor calls key s as r →
      (t.holders q).Nonempty → (t.holders r).Nonempty → q = r := by
  refine Machine.invariant_of_takes (I := fun pre u =>
    ∀ q r, StoodFor calls key s pre q → StoodFor calls key s pre r →
      (u.holders q).Nonempty → (u.holders r).Nonempty → q = r) hrun ?_ ?_
  · intro q r _ _ hq
    rw [hslots] at hq
    exact absurd hq Set.not_nonempty_empty
  · intro pre u a v htakes ih q r hq hr hqout hrout
    have hmoves := moves_of_step htakes.step
    have hq' : StoodFor calls key s pre q := hq.of_holders htakes hqout
    have hr' : StoodFor calls key s pre r := hr.of_holders htakes hrout
    by_cases hqa : ∃ c, a = .upstream q (.acquire c)
    · obtain ⟨c, rfl⟩ := hqa
      exact halone.only htakes hq' hr' hrout
    · by_cases hra : ∃ c, a = .upstream r (.acquire c)
      · obtain ⟨c, rfl⟩ := hra
        exact (halone.only htakes hr' hq' hqout).symm
      · obtain ⟨slot, hslot⟩ := hq'.exists_deref htakes.run
        obtain ⟨slot', hslot'⟩ := hr'.exists_deref htakes.run
        have hqsub : v.holders q ⊆ u.holders q :=
          hmoves.holders_subset hslot fun c hc => hqa ⟨c, hc⟩
        have hrsub : v.holders r ⊆ u.holders r :=
          hmoves.holders_subset hslot' fun c hc => hra ⟨c, hc⟩
        exact ih q r hq' hr' (hqout.mono hqsub) (hrout.mono hrsub)

end Alone

/-! ## The cap -/

lemma TakesAlone.of_prefix {pre : List (Action ρ)} (h : TakesAlone calls key s as)
    (hpre : pre <+: as) : TakesAlone calls key s pre := by
  obtain ⟨post, rfl⟩ := hpre
  exact fun first u q c v htakes => h first u q c v (htakes.of_append post)

lemma Started.holders (h : Started s) (r : ℕ) : s.holders r = ∅ := by
  have hnone : ∀ q slot, s.slots.deref q = some slot → slot.holders = ∅ :=
    h.forall_deref holders_freshSlot
  refine Set.eq_empty_of_forall_notMem ?_
  rintro d ⟨slot, hslot, hd⟩
  rw [hnone r slot hslot] at hd
  exact hd

/-- While no collection finds the identity absent, it goes on being served by the slot it has. -/
lemma lookup_of_collectsPresent (hstart : Started s) (huniform : Uniform key g s as)
    (hpresent : CollectsPresent calls key s as) {pre post : List (Action ρ)} {u v : System ρ}
    (hpre : (machine calls).run s pre = some u) (hpost : (machine calls).run u post = some v)
    (has : pre ++ post <+: as) (hr : u.slots.lookup key = some r) :
    v.slots.lookup key = some r := by
  have hprefix : pre <+: as := (List.prefix_append pre post).trans has
  obtain ⟨⟨hpath, hahead⟩, hsettings⟩ :=
    settings_of_run hstart hpre (huniform.of_prefix hprefix)
  obtain ⟨slot, hslot⟩ := Pool.exists_deref hr
  have hgov : governanceOf slot = g :=
    hsettings r slot ⟨pre, u, List.prefix_rfl, hpre, hr⟩ hslot
  have hkept : Kept key g r u := ⟨hr, ⟨r, slot, hr, hslot, hgov⟩, hahead⟩
  have hkeeps : Keeps calls key g u post := by
    refine ⟨?_, ?_⟩
    · intro w new hw hread
      rw [hpath] at hread
      exact huniform.reads w new (has.subset (List.mem_append_right pre hw)) hread
    · intro first x y htakes
      obtain ⟨rest, rfl⟩ := has
      exact hpresent _ x y ((htakes.prepend hpre).of_append rest)
  exact (kept_of_run hpost hkeeps hkept).lookup

/-- While no collection finds the identity absent, it has had one slot only. -/
lemma StoodFor.unique (hstart : Started s) (huniform : Uniform key g s as)
    (hpresent : CollectsPresent calls key s as) {q : ℕ}
    (hq : StoodFor calls key s as q) (hr : StoodFor calls key s as r) : q = r := by
  have hlater : ∀ {pre pre' u u' x y}, pre <+: pre' → pre' <+: as →
      (machine calls).run s pre = some u → (machine calls).run s pre' = some u' →
      u.slots.lookup key = some x → u'.slots.lookup key = some y → x = y := by
    rintro pre pre' u u' x y ⟨post, rfl⟩ has hu hu' hx hy
    obtain ⟨v, hv, hpost⟩ := (machine calls).run_append_eq_some.1 hu'
    obtain rfl : u = v := by simpa [hu] using hv
    have hkept := lookup_of_collectsPresent hstart huniform hpresent hu hpost has hx
    simpa [hkept] using hy
  obtain ⟨pre, u, hpre, hu, hx⟩ := hq
  obtain ⟨pre', u', hpre', hu', hy⟩ := hr
  rcases List.prefix_or_prefix_of_prefix hpre hpre' with hle | hle
  · exact hlater hle hpre' hu hu' hx hy
  · exact (hlater hle hpre hu' hu hy hx).symm

/-- Attempts in flight and open bodies hold permits. -/
lemma mem_holders (hrun : (machine calls).run s as = some t) (hstart : Started s)
    (huniform : Uniform key g s as) (hmax : g.maxConcurrency = some n) (hn : 0 < n)
    {p : ℕ × ℕ} (hp : p ∈ attempts calls key s as t ∪ bodies calls key s as t) :
    StoodFor calls key s as p.1 ∧ p.2 ∈ t.holders p.1 := by
  rcases hp with ⟨hstood, slot, guard, permit, attempt, hslot, hcall⟩ |
    ⟨hstood, slot, response, hslot, hcall⟩
  · refine ⟨hstood, slot, hslot, ?_⟩
    have hgov : governanceOf slot = g := (settings_of_run hstart hrun huniform).2 _ _ hstood hslot
    have hcapped : Governed.Capped n.toNat slot :=
      accounted_of_reachable ⟨s, as, hstart, hrun⟩ _ slot hslot n (by rw [hgov, hmax]) hn
    have hadmitted := hcapped.admitted p.2
    show (slot.calls p.2).permit = some true
    rw [hcall] at hadmitted ⊢
    simpa [Governed.Phase.permit] using hadmitted
  · refine ⟨hstood, slot, hslot, ?_⟩
    show (slot.calls p.2).permit = some true
    rw [hcall]
    rfl

/-- The cap across reloads.  Let every applied configuration that has the identity ask for the
same settings, with a cap `n`.  At every moment of a run in which no permit of one of its slots
is taken while one of another is out, the inner attempts in flight to it and the streamed bodies
from it that are not dropped, over all slots it has ever had, are `n` at most.  And a run is of
this kind if no collection finds the identity absent from the published configuration. -/
theorem cap_across_reloads (hstart : Started s) (hrun : (machine calls).run s as = some t)
    (huniform : Uniform key g s as) (hmax : g.maxConcurrency = some n) (hn : 0 < n) :
    (TakesAlone calls key s as → ∀ pre u, pre <+: as → (machine calls).run s pre = some u →
      (attempts calls key s pre u).encard + (bodies calls key s pre u).encard ≤ n.toNat) ∧
    (CollectsPresent calls key s as → TakesAlone calls key s as) := by
  constructor
  · intro halone pre u hpre hu
    have huniform' : Uniform key g s pre := huniform.of_prefix hpre
    have hdisjoint : Disjoint (attempts calls key s pre u) (bodies calls key s pre u) := by
      refine Set.disjoint_left.2 ?_
      rintro p ⟨-, slot, guard, permit, attempt, hslot, hcall⟩ ⟨-, slot', resp, hslot', hcall'⟩
      obtain rfl : slot = slot' := by simpa [hslot] using hslot'
      rw [hcall] at hcall'
      cases hcall'
    have hone : ∀ r, StoodFor calls key s pre r → (u.holders r).encard ≤ n.toNat := by
      intro r hstood
      obtain ⟨slot, hslot⟩ := hstood.exists_deref hu
      have hgov : governanceOf slot = g :=
        (settings_of_run hstart hu huniform').2 r slot hstood hslot
      have hcapped : Governed.Capped n.toNat slot :=
        accounted_of_reachable ⟨s, pre, hstart, hu⟩ r slot hslot n (by rw [hgov, hmax]) hn
      have hholders : u.holders r = slot.holders := by
        ext d
        simp [System.holders, hslot]
      obtain ⟨sem, -, haccounts⟩ := hcapped.accounts
      rw [hholders]
      exact haccounts.encard_le
    calc (attempts calls key s pre u).encard + (bodies calls key s pre u).encard
        = (attempts calls key s pre u ∪ bodies calls key s pre u).encard :=
          (Set.encard_union_eq hdisjoint).symm
      _ ≤ {p : ℕ × ℕ | p.1 ∈ {r | StoodFor calls key s pre r} ∧ p.2 ∈ u.holders p.1}.encard :=
          Set.encard_le_encard fun p hp => mem_holders hu hstart huniform' hmax hn hp
      _ ≤ n.toNat := by
          refine encard_pairs_le hone ?_
          intro q hq r hr
          exact alone_of_run hu (halone.of_prefix hpre) hstart.holders q r hq hr
  · intro hpresent pre u q c v htakes hq r hr hne
    have hprefix : pre <+: as := by
      obtain ⟨post, rfl, -, -⟩ := htakes
      exact List.prefix_append _ _
    exact absurd (StoodFor.unique hstart huniform hpresent (hr.of_prefix hprefix)
      (hq.of_prefix hprefix)) hne

/-! ## A server with a cap of one -/

/-- The document whose model has a cap. -/
def cappedDoc : ConfigDoc where
  keys := []
  models :=
    [{ name := "opus", providerType := .anthropic, baseUrl := "https://a",
       apiKeyEnv := "UPSTREAM_KEY", upstreamId := none, rateLimit := none,
       maxConcurrency := some 1, pricePromptPerMtokUsd := none,
       priceCompletionPerMtokUsd := none }]

def cappedModel : ModelConfig := { soloModel none with maxConcurrency := some 1 }

def cappedConfig : RuntimeConfig where
  server := Validate.serverConfig {}
  keys := []
  models := (∅ : Table String ModelConfig).insert "opus" cappedModel
  recipes := ∅

def cappedGovernance : UpstreamGovernance :=
  UpstreamGovernance.of cappedModel cappedConfig.server.breaker

/-- Every call is a stream that is not retried. -/
def streamCalls (_slot _call : ℕ) : Governed.Call where
  method := .passthroughStream
  retry := { enabled := false, maxRetries := 0, backoffMs := 0 }

/-- A call over a slot opens a stream, and its client goes on reading. -/
def openStream (r c : ℕ) : List (Action Unit) :=
  [.upstream r (.check c 0), .upstream r (.bucket c { allowed := true, cell := 0 }),
    .upstream r (.acquire c), .upstream r (.begin c), .upstream r (.complete c (.ok ())),
    .upstream r (.dropBreakerGuard c 0)]

/-- A reload of a document with one model and no keys. -/
def reloading (doc : ConfigDoc) : List (Action Unit) :=
  .reload (soloWorld doc) :: List.replicate 5 .advance

/-- What the server with the cap does from its start. -/
def cappedRun (as : List (Action Unit)) : Option (System Unit) :=
  match ConfigReloader.startup soloPlatform.env cappedConfig "moaray.yaml" with
  | .ok core => (machine streamCalls).run { core, stage := .idle, result := none } as
  | .error _ => none

def reading (s : System Unit) (r c : ℕ) : Bool :=
  match (s.slots.deref r).map fun slot => slot.calls c with
  | some (Governed.Phase.streaming _) => true
  | _ => false

lemma exists_of_reading {s : System Unit} {c : ℕ} (h : reading s r c = true) :
    ∃ slot response, s.slots.deref r = some slot ∧ slot.calls c = .streaming response := by
  unfold reading at h
  split at h
  · rename_i response hphase
    obtain ⟨slot, hslot, hcall⟩ := Option.map_eq_some_iff.1 hphase
    exact ⟨slot, response, hslot, hcall⟩
  · cases h

lemma validate_capped : validate soloPlatform cappedDoc = .ok cappedConfig := rfl

/-- What can be computed of that server is a run of the system. -/
lemma exists_cappedRun (as : List (Action Unit)) (h : (cappedRun as).isSome) :
    ∃ s t, Started s ∧ s.config = cappedConfig ∧ (machine streamCalls).run s as = some t ∧
      cappedRun [] = some s ∧ cappedRun as = some t := by
  obtain ⟨s, hcore, hidle, hresult, hconfig⟩ :=
    exists_started (ρ := Unit) ⟨_, validate_capped⟩ "moaray.yaml"
  have hs : { core := s.core, stage := .idle, result := none } = s := by
    rw [← hidle, ← hresult]
  have hrun : ∀ bs, cappedRun bs = (machine streamCalls).run s bs := by
    intro bs
    simp only [cappedRun, hcore, hs]
  obtain ⟨t, ht⟩ := Option.isSome_iff_exists.1 h
  exact ⟨s, t, ⟨soloPlatform, _, _, ⟨_, validate_capped⟩, hcore, hidle, hresult⟩, hconfig,
    (hrun as).symm.trans ht, hrun [], ht⟩

lemma asks_capped : Asks cappedConfig cappedModel.stateKey cappedGovernance :=
  ⟨cappedModel, by simp [show Table.rows cappedConfig.models = [cappedModel] from rfl], rfl, rfl⟩

lemma not_has_moved : ¬ Has movedConfig cappedModel.stateKey := by
  rintro ⟨m, hm, hkey⟩
  obtain rfl : m = { soloModel none with
      baseUrl := "https://b", stateKey := "anthropic|https://b|UPSTREAM_KEY" } := by
    simpa [show Table.rows movedConfig.models = [_] from rfl] using hm
  revert hkey
  decide

/-- A stream stays open over a reload of the same file: there is no second one. -/
theorem cap_across_reloads_reloaded :
    ∃ s t, s.config = cappedConfig ∧
      (machine streamCalls).run s (openStream 0 0 ++ reloading cappedDoc) = some t ∧
      (attempts streamCalls cappedModel.stateKey s (openStream 0 0 ++ reloading cappedDoc)
          t).encard +
        (bodies streamCalls cappedModel.stateKey s (openStream 0 0 ++ reloading cappedDoc)
          t).encard ≤ ((1 : UInt32).toNat : ℕ∞) := by
  obtain ⟨s, t, hstart, hconfig, hrun, -⟩ :=
    exists_cappedRun (openStream 0 0 ++ reloading cappedDoc) (by decide +kernel)
  have huniform : Uniform cappedModel.stateKey cappedGovernance s
      (openStream 0 0 ++ reloading cappedDoc) := by
    refine ⟨.inl (by rw [hconfig]; exact asks_capped), ?_⟩
    intro w new hw hread
    obtain rfl : w = soloWorld cappedDoc := by simpa [openStream, reloading] using hw
    obtain rfl : cappedConfig = new := Except.ok.inj hread
    exact .inl asks_capped
  have hpresent : CollectsPresent streamCalls cappedModel.stateKey s
      (openStream 0 0 ++ reloading cappedDoc) := by
    intro pre u v htakes
    have hmem := htakes.mem
    simp [openStream, reloading] at hmem
  obtain ⟨hcap, halone⟩ := cap_across_reloads (n := 1) hstart hrun huniform rfl (by decide)
  exact ⟨s, t, hconfig, hrun, hcap (halone hpresent) _ t List.prefix_rfl hrun⟩

/-- The model moves away and its slot is collected while a stream is open; then it comes back. -/
def roundTrip : List (Action Unit) :=
  openStream 0 0 ++ reloading movedDoc ++ .gc :: reloading cappedDoc ++ openStream 2 0

/-- Two bodies are read at once from an identity with a cap of one. -/
theorem cap_exceeded :
    ∃ s t, Started s ∧ (machine streamCalls).run s roundTrip = some t ∧
      Uniform cappedModel.stateKey cappedGovernance s roundTrip ∧
      cappedGovernance.maxConcurrency = some 1 ∧
      ((1 : UInt32).toNat : ℕ∞) <
        (attempts streamCalls cappedModel.stateKey s roundTrip t).encard +
          (bodies streamCalls cappedModel.stateKey s roundTrip t).encard := by
  obtain ⟨s, t, hstart, hconfig, hrun, hs, ht⟩ := exists_cappedRun roundTrip
    (by decide +kernel)
  have hbegin : (cappedRun []).any (fun s => s.slots.lookup cappedModel.stateKey = some 0) :=
    by decide +kernel
  have hend : (cappedRun roundTrip).any (fun t =>
      t.slots.lookup cappedModel.stateKey = some 2 && reading t 0 0 && reading t 2 0) :=
    by decide +kernel
  rw [hs] at hbegin
  rw [ht] at hend
  obtain ⟨⟨hlast, hfirst⟩, hsecond⟩ : (t.slots.lookup cappedModel.stateKey = some 2 ∧
      reading t 0 0 = true) ∧ reading t 2 0 = true := by simpa using hend
  have huniform : Uniform cappedModel.stateKey cappedGovernance s roundTrip := by
    refine ⟨.inl (by rw [hconfig]; exact asks_capped), ?_⟩
    intro w new hw hread
    obtain rfl | rfl : w = soloWorld movedDoc ∨ w = soloWorld cappedDoc := by
      simpa [roundTrip, openStream, reloading] using hw
    · obtain rfl : movedConfig = new := Except.ok.inj hread
      exact .inr not_has_moved
    · obtain rfl : cappedConfig = new := Except.ok.inj hread
      exact .inl asks_capped
  -- The identity has had the first slot and has the third.
  have hold : StoodFor streamCalls cappedModel.stateKey s roundTrip 0 :=
    ⟨[], s, List.nil_prefix, rfl, by simpa using hbegin⟩
  have hnew : StoodFor streamCalls cappedModel.stateKey s roundTrip 2 :=
    ⟨roundTrip, t, List.prefix_rfl, hrun, hlast⟩
  have hbodies : ({(0, 0), (2, 0)} : Set (ℕ × ℕ)) ⊆
      bodies streamCalls cappedModel.stateKey s roundTrip t := by
    rintro p (rfl | rfl)
    · exact ⟨hold, exists_of_reading hfirst⟩
    · exact ⟨hnew, exists_of_reading hsecond⟩
  refine ⟨s, t, hstart, hrun, huniform, rfl, ?_⟩
  calc ((1 : UInt32).toNat : ℕ∞) < 2 := by
        rw [show (1 : UInt32).toNat = 1 from rfl]
        norm_num
    _ = ({(0, 0), (2, 0)} : Set (ℕ × ℕ)).encard := (Set.encard_pair (by decide)).symm
    _ ≤ (bodies streamCalls cappedModel.stateKey s roundTrip t).encard :=
        Set.encard_le_encard hbodies
    _ ≤ _ := le_add_self

end Reload

end Moaray
