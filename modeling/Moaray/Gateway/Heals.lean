import Moaray.Gateway.Attempts
import Moaray.Gateway.Cap
import Moaray.Gateway.FailFast

/-!
# A slot is never wedged

Calls can be left anywhere: waiting for a permit, asleep between attempts, in flight against an
upstream that stopped answering, with the breaker open or the probe out.  From each such state the
slot finds back by itself once the upstream answers.

* `Healthy`, `HealthyRun` — the steps of a slot whose upstream answers and whose callers are
  patient, and a run of them against a clock.
* `Quiet` — no call holds anything.
* `drains` — every call in flight can come to its end.
* `probed` — from a quiet slot one more call brings a breaker that is not closed nearer to it.
* `heals` — so the breaker closes, after no more new calls than the successes it asks for, and
  every permit is back.

The way back has three parts.  First the calls in flight are drained: while some call holds
something, one can move, since a call waits for a permit only while another one has it, and each
step brings the sum of what is ahead nearer to nothing.  Then, from a quiet slot, one call at a
time is let in; a breaker that is open has cooled down by then, so the call is its probe, and it
succeeds.  Each probe lowers `needed`, the successes that are still missing.

**Design.**  Finitely many calls have ever been polled (`exists_polled`), so the sum over calls is
finite and there is always a new one to let in.  Healthy steps are those of an environment that
cooperates, not of a slot in a good state: they are allowed from everywhere.  Among them is that
the token bucket grants its tokens, since a limiter that refuses every call would keep the breaker
from ever being probed.
-/

namespace Moaray

open Framework

namespace Governed

variable {ρ : Type}

/-! ## Healthy steps -/

/-- No caller gives up, the token bucket has tokens, the upstream answers `response`, and the
clock, where it is read, shows `now`. -/
def Healthy (now : Instant) (response : ρ) : Action ρ → Prop
  | .check _ time | .dropBreakerGuard _ time => time = now
  | .bucket _ answer => answer.allowed = true
  | .complete _ result => result = .ok response
  | .cancel _ => False
  | .acquire _ | .dropProbeGuard _ | .begin _ | .wake _ | .dropPermit _ | .dropBody _ => True

def Action.reading : Action ρ → Option Instant
  | .check _ time | .dropBreakerGuard _ time => some time
  | _ => none

/-- A healthy run: its clock readings start at `now` and never go back, and each of its steps is
healthy at the time it is taken. -/
structure HealthyRun (now : Instant) (response : ρ) (bs : List (Action ρ)) : Prop where
  healthy : ∀ b ∈ bs, ∃ time, Healthy time response b
  clock : (now :: bs.filterMap Action.reading).Pairwise (· ≤ ·)

def Action.enters : Action ρ → Bool
  | .check _ _ => true
  | _ => false

/-- The call has not been polled, or it is over. -/
def Phase.Quiet : Phase ρ → Prop
  | .idle | .over _ => True
  | _ => False

/-- No call over the slot holds anything.  Calls may have been there before. -/
def Quiet (s : State ρ) : Prop := ∀ c, (s.calls c).Quiet

/-- How many steps a call has left at most while the slot is healthy. -/
def Phase.ahead (k : Call) : Phase ρ → ℕ
  | .checked _ => 4 * k.retries.toNat + 7
  | .queued _ => 4 * k.retries.toNat + 6
  | .rejected _ _ | .streaming _ => 1
  | p => p.remaining k

section HealthyRun

variable {now time : Instant} {response : ρ} {b : Action ρ} {bs cs : List (Action ρ)}

lemma Healthy.reading (h : Healthy now response b) (hb : b.reading = some time) : time = now := by
  cases b with
  | check | dropBreakerGuard =>
      obtain rfl := Option.some.inj hb
      exact h
  | _ => cases hb

lemma HealthyRun.nil : HealthyRun now response ([] : List (Action ρ)) :=
  ⟨by simp, List.pairwise_singleton _ _⟩

/-- Steps at one time, before a run that goes on from there. -/
lemma HealthyRun.append (hbs : ∀ b ∈ bs, Healthy time response b) (htime : now ≤ time)
    (hcs : HealthyRun time response cs) : HealthyRun now response (bs ++ cs) := by
  have hreadings : ∀ r ∈ bs.filterMap Action.reading, r = time := by
    intro r hr
    obtain ⟨b, hb, hread⟩ := List.mem_filterMap.1 hr
    exact (hbs b hb).reading hread
  obtain ⟨hlater, hsorted⟩ := List.pairwise_cons.1 hcs.clock
  constructor
  · intro b hb
    rcases List.mem_append.1 hb with hb | hb
    · exact ⟨time, hbs b hb⟩
    · exact hcs.healthy b hb
  · rw [List.filterMap_append, List.pairwise_cons, List.pairwise_append]
    refine ⟨fun r hr => ?_, List.pairwise_of_forall_mem_list fun r hr r' hr' => ?_, hsorted,
      fun r hr r' hr' => ?_⟩
    · rcases List.mem_append.1 hr with hr | hr
      · rw [hreadings r hr]
        exact htime
      · exact htime.trans (hlater r hr)
    · rw [hreadings r hr, hreadings r' hr']
    · rw [hreadings r hr]
      exact hlater r' hr'

end HealthyRun

section Steps

variable {calls : ℕ → Call} {s : State ρ} {c : ℕ} (now : Instant) (response : ρ)

lemma resume_ok (k : Call) (guard : BreakerGuard) (permit : Bool) (attempt : UInt32) :
    resume k guard permit attempt (.ok response) =
      .finishing guard.success permit (some (.ok response)) := by
  unfold resume passthrough chat passthroughStream retryLoop
  cases k.method <;> rfl

lemma ahead_afterGuard (k : Call) (permit : Bool) (outcome : Option (Except Error ρ)) :
    (afterGuard k permit outcome).ahead k < 2 := by
  rcases afterGuard_cases k permit outcome with
    ⟨-, hover⟩ | ⟨-, -, hreleasing⟩ | ⟨-, -, resp, -, hstreaming⟩
  · simp [hover, Phase.ahead, Phase.remaining]
  · simp [hreleasing, Phase.ahead, Phase.remaining]
  · simp [hstreaming, Phase.ahead]

variable (calls) in
/-- A call that holds something and does not wait for a permit moves on. -/
lemma exists_step_of_not_queued (hquiet : ¬ (s.calls c).Quiet)
    (hqueued : ∀ admission, s.calls c ≠ .queued admission) :
    ∃ a t, (Healthy now response a ∧ a.enters = false) ∧ a.call = c ∧
      (machine calls).step s a = some t ∧ (t.calls c).ahead (calls c) <
        (s.calls c).ahead (calls c) := by
  cases hc : s.calls c with
  | idle | «over» =>
      rw [hc] at hquiet
      exact absurd trivial hquiet
  | queued admission => exact absurd hc (hqueued admission)
  | checked admission =>
      obtain ⟨u, hu, -⟩ := s.upstream.checkLimit_allowed 0
      refine ⟨.bucket c { allowed := true, cell := 0 },
        { s with upstream := u }.goto c (.queued admission), ⟨rfl, rfl⟩, rfl, ?_, ?_⟩
      · simp [machine, step, hc, hu]
      · simp [Phase.ahead]
  | rejected admission outcome =>
      refine ⟨.dropProbeGuard c, (s.withBreaker ((ProbeReleaseGuard.new admission).drop
        s.breaker)).goto c (.over outcome), ⟨trivial, rfl⟩, rfl, ?_, ?_⟩
      · simp [machine, step, hc]
      · simp [Phase.ahead, Phase.remaining]
  | admitted guard permit n =>
      refine ⟨.begin c, s.goto c (.attempting guard permit n), ⟨trivial, rfl⟩, rfl, ?_, ?_⟩
      · simp [machine, step, hc]
      · simp [Phase.ahead, Phase.remaining]
  | attempting guard permit n =>
      refine ⟨.complete c (.ok response), s.goto c (.finishing guard.success permit
        (some (.ok response))), ⟨rfl, rfl⟩, rfl, ?_, ?_⟩
      · simp [machine, step, hc, resume_ok]
      · simp only [State.calls_goto_self, Phase.ahead, Phase.remaining]
        omega
  | sleeping guard permit n delayMs =>
      refine ⟨.wake c, s.goto c (.admitted guard permit n), ⟨trivial, rfl⟩, rfl, ?_, ?_⟩
      · simp [machine, step, hc]
      · simp [Phase.ahead, Phase.remaining]
  | finishing guard permit outcome =>
      refine ⟨.dropBreakerGuard c now, (s.withBreaker (guard.drop now s.breaker)).goto c
        (afterGuard (calls c) permit outcome), ⟨rfl, rfl⟩, rfl, ?_, ?_⟩
      · simp [machine, step, hc]
      · rw [State.calls_goto_self]
        exact ahead_afterGuard (calls c) permit outcome
  | releasing outcome =>
      refine ⟨.dropPermit c, (s.withConcurrency s.upstream.concurrency.release).goto c
        (.over outcome), ⟨trivial, rfl⟩, rfl, ?_, ?_⟩
      · simp [machine, step, hc]
      · simp [Phase.ahead, Phase.remaining]
  | streaming resp =>
      refine ⟨.dropBody c, (s.withConcurrency s.upstream.concurrency.release).goto c
        (.over (some (.ok resp))), ⟨trivial, rfl⟩, rfl, ?_, ?_⟩
      · simp [machine, step, hc]
      · simp [Phase.ahead, Phase.remaining]

variable (calls) in
/-- A call that waits for a permit moves on when there is one. -/
lemma exists_step_of_queued {admission : Admission} {k : Concurrency} {permit : Bool}
    (hc : s.calls c = .queued admission) (hk : s.upstream.concurrency.acquire = some (k, permit)) :
    ∃ a t, (Healthy now response a ∧ a.enters = false) ∧ a.call = c ∧
      (machine calls).step s a = some t ∧ (t.calls c).ahead (calls c) <
        (s.calls c).ahead (calls c) := by
  let b := (ProbeReleaseGuard.new admission).disarm.drop s.breaker
  refine ⟨.acquire c, ((s.withConcurrency k).withBreaker b).goto c
    (.admitted (BreakerGuard.new admission) permit 0), ⟨trivial, rfl⟩, rfl, ?_, ?_⟩
  · simp [machine, step, hc, hk, b]
  · simp [hc, Phase.ahead, Phase.remaining]

end Steps

/-! ## A slot as it is built -/

/-- A fresh slot for a model, before any call is polled. -/
def built (model : ModelConfig) (cfg : BreakerConfig) : State ρ :=
  State.init (UpstreamState.build model cfg)

section Built

variable {calls : ℕ → Call} {model : ModelConfig} {cfg : BreakerConfig} {s t : State ρ}

lemma reachable_fresh (h : (machine calls).Reachable (· = built model cfg) s) :
    (machine calls).Reachable (Fresh cfg) s := by
  obtain ⟨_, as, rfl, hrun⟩ := h
  exact ⟨_, as, ⟨_, rfl, rfl⟩, hrun⟩

/-- Only finitely many calls have been polled. -/
lemma exists_polled (h : (machine calls).Reachable (· = built model cfg) s) :
    ∃ polled : Finset ℕ, ∀ c ∉ polled, s.calls c = .idle := by
  refine h.invariant (I := fun s => ∃ polled : Finset ℕ, ∀ c ∉ polled, s.calls c = .idle) ?_ ?_
  · rintro s rfl
    exact ⟨∅, fun c _ => rfl⟩
  · rintro s a t ⟨polled, hpolled⟩ hstep
    refine ⟨insert a.call polled, fun c hc => ?_⟩
    rw [Finset.mem_insert, not_or] at hc
    rw [(moves_of_step hstep).calls_of_ne hc.1]
    exact hpolled c hc.2

/-- The semaphore of the slot keeps account of its permits, if it has one. -/
def Permits (model : ModelConfig) (s : State ρ) : Prop :=
  match (Concurrency.new model.maxConcurrency).sem with
  | none => s.upstream.concurrency.sem = none
  | some sem => 0 < sem.available ∧ Capped sem.available s

lemma permits_built : Permits model (built model cfg : State ρ) := by
  unfold Permits
  cases hmax : model.maxConcurrency with
  | none => simp [Concurrency.new, built, State.init, UpstreamState.build, hmax]
  | some n =>
      by_cases hn : 0 < n
      · simp only [Concurrency.new, hn, if_true]
        have hpos : 0 < n.toNat := by simpa using UInt32.lt_iff_toNat_lt.1 hn
        exact ⟨hpos, capped_freshSlot (g := UpstreamGovernance.of model cfg) hmax hn⟩
      · simp [Concurrency.new, built, State.init, UpstreamState.build, hmax, hn]

lemma unbounded_step {a : Action ρ} (h : Moves calls s a t)
    (hs : s.upstream.concurrency.sem = none) : t.upstream.concurrency.sem = none := by
  cases h with
  | pass hc hu | throttle hc hu => exact (congrArg _ (concurrency_of_checkLimit hu)).trans hs
  | acquire hc hk =>
      simp only [Concurrency.acquire, hs, Option.some.injEq, Prod.mk.injEq] at hk
      obtain ⟨rfl, -⟩ := hk
      exact hs
  | dropPermit hc | dropBody hc =>
      show s.upstream.concurrency.release.sem = none
      simp [Concurrency.release, hs]
  | _ => exact hs

lemma permits_of_reachable (h : (machine calls).Reachable (· = built model cfg) s) :
    Permits model s := by
  refine h.invariant (I := Permits model) ?_ ?_
  · rintro s rfl
    exact permits_built
  · intro s a t hs hstep
    unfold Permits at hs ⊢
    split at hs
    · exact unbounded_step (moves_of_step hstep) hs
    · exact ⟨hs.1, hs.2.step (moves_of_step hstep)⟩

/-- While no call has a permit there is one for the next. -/
lemma exists_acquire (h : Permits model s) (hnone : s.holders = ∅) :
    ∃ k permit, s.upstream.concurrency.acquire = some (k, permit) := by
  unfold Permits at h
  unfold Concurrency.acquire
  split at h
  · simp [h]
  · rename_i total htotal
    obtain ⟨hpos, ⟨sem, hsem, haccounts⟩, -⟩ := h
    rw [hnone] at haccounts
    have hall : sem.available = total.available := by simpa [Accounts] using haccounts
    rw [hsem]
    simp [hall, hpos]

lemma concurrency_of_quiet (h : Permits model s) (hnone : s.holders = ∅) :
    s.upstream.concurrency = Concurrency.new model.maxConcurrency := by
  unfold Permits at h
  split at h
  · rename_i hsem
    rw [← h] at hsem
    exact (congrArg Concurrency.mk hsem).symm
  · rename_i total htotal
    obtain ⟨-, ⟨sem, hsem, haccounts⟩, -⟩ := h
    rw [hnone] at haccounts
    obtain rfl : sem = total := by
      cases sem
      cases total
      simpa [Accounts] using haccounts
    rw [← hsem] at htotal
    exact (congrArg Concurrency.mk htotal).symm

lemma holders_of_waiting (h : ∀ c, (s.calls c).Quiet ∨ ∃ admission, s.calls c = .queued admission) :
    s.holders = ∅ := by
  refine Set.eq_empty_iff_forall_notMem.2 fun c hheld => ?_
  replace hheld : (s.calls c).permit = some true := hheld
  rcases h c with hquiet | ⟨admission, hqueued⟩
  · cases hc : s.calls c with
    | idle | «over» =>
        rw [hc] at hheld
        cases hheld
    | _ =>
        rw [hc] at hquiet
        exact hquiet
  · rw [hqueued] at hheld
    cases hheld

lemma holders_of_quiet (h : Quiet s) : s.holders = ∅ := holders_of_waiting fun c => .inl (h c)

/-! ## The way back -/

variable (calls) in
lemma exists_healthy_step (now : Instant) (response : ρ) (hpermits : Permits model s)
    (hheld : ¬ Quiet s) :
    ∃ a t, (Healthy now response a ∧ a.enters = false) ∧ (machine calls).step s a = some t ∧
      (t.calls a.call).ahead (calls a.call) < (s.calls a.call).ahead (calls a.call) := by
  by_cases hbusy : ∃ c, ¬ (s.calls c).Quiet ∧ ∀ admission, s.calls c ≠ .queued admission
  · obtain ⟨c, hc, hqueued⟩ := hbusy
    obtain ⟨a, t, ha, rfl, hstep, hlt⟩ := exists_step_of_not_queued calls now response hc hqueued
    exact ⟨a, t, ha, hstep, hlt⟩
  · -- Every call that holds something waits for a permit, so none is out.
    have hwaiting : ∀ c, (s.calls c).Quiet ∨ ∃ admission, s.calls c = .queued admission := by
      intro c
      by_contra hc
      rw [not_or, not_exists] at hc
      exact hbusy ⟨c, hc⟩
    obtain ⟨c, hc⟩ := not_forall.1 hheld
    obtain ⟨admission, hqueued⟩ := (hwaiting c).resolve_left hc
    obtain ⟨k, permit, hk⟩ := exists_acquire hpermits (holders_of_waiting hwaiting)
    obtain ⟨a, t, ha, rfl, hstep, hlt⟩ := exists_step_of_queued calls now response hqueued hk
    exact ⟨a, t, ha, hstep, hlt⟩

/-- From every reachable state each call in flight can come to its end, and no other call is
needed for it. -/
theorem drains (h : (machine calls).Reachable (· = built model cfg) s) (now : Instant)
    (response : ρ) :
    ∃ bs t, (∀ b ∈ bs, Healthy now response b ∧ b.enters = false) ∧
      (machine calls).run s bs = some t ∧ Quiet t := by
  obtain ⟨polled, hpolled⟩ := exists_polled h
  let left (t : State ρ) : ℕ := ∑ c ∈ polled, (t.calls c).ahead (calls c)
  have hprogress : ∀ as t, ((machine calls).run s as = some t ∧ ∀ c ∉ polled, t.calls c = .idle) →
      ¬ Quiet t →
      ∃ a u, (Healthy now response a ∧ a.enters = false) ∧ (machine calls).step t a = some u ∧
        ((machine calls).run s (as ++ [a]) = some u ∧ ∀ c ∉ polled, u.calls c = .idle) ∧
        left u < left t := by
    rintro as t ⟨hrun, hothers⟩ hheld
    have hreach := h.tail hrun
    obtain ⟨a, u, ha, hstep, hlt⟩ :=
      exists_healthy_step calls now response (permits_of_reachable hreach) hheld
    have hmoves := moves_of_step hstep
    have hmem : a.call ∈ polled := by
      by_contra hout
      -- A call that was never polled has nothing left to do.
      rw [hothers a.call hout] at hlt
      exact absurd hlt (Nat.not_lt_zero _)
    have hrun' := (machine calls).run_concat_eq_some.2 ⟨t, hrun, hstep⟩
    refine ⟨a, u, ha, hstep, ⟨hrun', fun c hc => ?_⟩, ?_⟩
    · have hne : c ≠ a.call := fun heq => hc (heq ▸ hmem)
      rw [hmoves.calls_of_ne hne]
      exact hothers c hc
    · refine Finset.sum_lt_sum (fun c _ => ?_) ⟨a.call, hmem, hlt⟩
      by_cases hc : c = a.call
      · rw [hc]
        exact hlt.le
      · rw [hmoves.calls_of_ne hc]
  obtain ⟨bs, t, hbs, hrun, -, hquiet⟩ :=
    Machine.exists_run_of_progress left hprogress ⟨(machine calls).run_nil s, hpolled⟩
  exact ⟨bs, t, hbs, hrun, hquiet⟩

/-! ## The breaker -/

/-- How many more probes have to succeed before the breaker closes.  A threshold of zero asks for
one probe like a threshold of one. -/
def needed (b : CircuitBreaker) : ℕ :=
  match b.state with
  | .closed => 0
  | .halfOpen => max b.cfg.halfOpenSuccesses.toNat 1 - b.consecutiveSuccesses.toNat
  | .opened => max b.cfg.halfOpenSuccesses.toNat 1

lemma needed_le (b : CircuitBreaker) : needed b ≤ max b.cfg.halfOpenSuccesses.toNat 1 := by
  unfold needed
  split <;> omega

/-- The report of a probe's success brings a half-open breaker nearer to being closed. -/
lemma needed_onSuccessAt {b : CircuitBreaker} {time : Instant} (hstate : b.state = .halfOpen)
    (hsuccesses : b.consecutiveSuccesses.toNat < max b.cfg.halfOpenSuccesses.toNat 1) :
    needed (b.onSuccessAt time .probe) < needed b := by
  rw [CircuitBreaker.onSuccessAt_halfOpen_probe hstate]
  split
  · simp only [needed, hstate]
    omega
  · rename_i hmore
    have hlt : b.consecutiveSuccesses < b.cfg.halfOpenSuccesses := by
      simp only [UInt32.le_iff_toNat_le, UInt32.toNat_add, UInt32.lt_iff_toNat_lt] at hmore ⊢
      omega
    simp only [needed, hstate, toNat_succ_of_lt hlt]
    omega

/-- A breaker that is not closed admits a probe, in half-open state. -/
lemma needed_checkAt {b b' : CircuitBreaker} {time : Instant} {a : Admission}
    (hclosed : b.state ≠ .closed) (h : b.checkAt time = (b', .ok a)) :
    a = .probe ∧ b'.state = .halfOpen ∧ needed b' ≤ needed b := by
  rcases CircuitBreaker.checkAt_ok h with ⟨hst, -, -⟩ | ⟨hst, -, rfl, rfl⟩ | ⟨hst, -, rfl, rfl⟩
  · exact absurd hst hclosed
  · exact ⟨rfl, hst, by simp [needed, hst]⟩
  · exact ⟨rfl, rfl, by simp [needed, hst]⟩

lemma quiet_goto {c : ℕ} {p : Phase ρ} (hs : ∀ d, d ≠ c → (s.calls d).Quiet)
    (hcalls : t.calls = s.calls) (d : ℕ) (hd : d ≠ c) : ((t.goto c p).calls d).Quiet := by
  rw [State.calls_goto_ne t c d p hd, hcalls]
  exact hs d hd

/-- What is left of a call when its guard is gone is to give its permit back. -/
lemma exists_quiet {c : ℕ} {permit : Bool} {outcome : Option (Except Error ρ)} (now : Instant)
    (response : ρ) (hs : ∀ d, d ≠ c → (s.calls d).Quiet)
    (hc : s.calls c = afterGuard (calls c) permit outcome) :
    ∃ bs t, (∀ b ∈ bs, Healthy now response b) ∧ bs.countP Action.enters = 0 ∧
      (machine calls).run s bs = some t ∧ Quiet t ∧ t.breaker = s.breaker := by
  have hlast : ∀ {u : State ρ} {result}, u.calls = s.calls → Quiet (u.goto c (.over result)) := by
    intro u result hcalls d
    by_cases hd : d = c
    · subst hd
      simp [Phase.Quiet]
    · exact quiet_goto hs hcalls d hd
  rcases afterGuard_cases (calls c) permit outcome with
    ⟨-, hover⟩ | ⟨-, -, hreleasing⟩ | ⟨-, -, resp, -, hstreaming⟩
  · refine ⟨[], s, by simp, rfl, rfl, fun d => ?_, rfl⟩
    by_cases hd : d = c
    · subst hd
      rw [hc, hover]
      trivial
    · exact hs d hd
  · refine ⟨[.dropPermit c], (s.withConcurrency s.upstream.concurrency.release).goto c
      (.over outcome), by simp [Healthy], rfl, ?_, hlast rfl, rfl⟩
    simp [machine, step, hc, hreleasing]
  · refine ⟨[.dropBody c], (s.withConcurrency s.upstream.concurrency.release).goto c
      (.over (some (.ok resp))), by simp [Healthy], rfl, ?_, hlast rfl, rfl⟩
    simp [machine, step, hc, hstreaming]

/-- A call that was let in as the probe, alone on its slot, reports its success. -/
lemma exists_report {c : ℕ} (time : Instant) (response : ρ)
    (h : (machine calls).Reachable (· = built model cfg) s)
    (hs : ∀ d, d ≠ c → (s.calls d).Quiet) (hc : s.calls c = .checked .probe) :
    ∃ bs t, (∀ b ∈ bs, Healthy time response b) ∧ bs.countP Action.enters = 0 ∧
      (machine calls).run s bs = some t ∧ Quiet t ∧
      t.breaker = s.breaker.onSuccessAt time .probe := by
  obtain ⟨u, hu, -⟩ := s.upstream.checkLimit_allowed 0
  have hbucket : (machine calls).step s (.bucket c { allowed := true, cell := 0 }) =
      some ({ s with upstream := u }.goto c (.queued .probe)) := by
    simp [machine, step, hc, hu]
  have hothers := quiet_goto (t := { s with upstream := u }) (p := .queued .probe) hs rfl
  generalize hq : { s with upstream := u }.goto c (.queued .probe) = q at hbucket hothers
  have hqbreaker : q.breaker = s.breaker := by
    rw [← hq]
    exact breaker_of_checkLimit hu
  have hqueued : q.calls c = .queued .probe := by
    rw [← hq]
    exact State.calls_goto_self ..
  have hqreach : (machine calls).Reachable (· = built model cfg) q :=
    h.tail (by rw [Machine.run_singleton]; exact hbucket)
  obtain ⟨k, permit, hk⟩ := exists_acquire (permits_of_reachable hqreach)
    (holders_of_waiting fun d => by
      by_cases hd : d = c
      · exact .inr ⟨.probe, hd ▸ hqueued⟩
      · exact .inl (hothers d hd))
  let v := (((q.withConcurrency k).withBreaker (q.breaker.onSuccessAt time .probe)).goto c
    (afterGuard (calls c) permit (some (.ok response))))
  have hreport : (machine calls).run q [.acquire c, .begin c, .complete c (.ok response),
      .dropBreakerGuard c time] = some v := by
    simp [v, machine, Machine.run_cons, step, hqueued, hk, resume_ok, State.goto,
      State.withBreaker, State.withConcurrency, State.breaker, BreakerGuard.drop,
      BreakerGuard.success, BreakerGuard.new, ProbeReleaseGuard.drop, ProbeReleaseGuard.disarm]
  have hv : ∀ d, d ≠ c → (v.calls d).Quiet := quiet_goto hothers rfl
  have hvc : v.calls c = afterGuard (calls c) permit (some (.ok response)) :=
    State.calls_goto_self ..
  obtain ⟨bs, t, hbs, hnone, hrun, hquiet, hbreaker⟩ := exists_quiet time response hv hvc
  refine ⟨.bucket c { allowed := true, cell := 0 } :: ([.acquire c, .begin c,
    .complete c (.ok response), .dropBreakerGuard c time] ++ bs), t, ?_, ?_, ?_, hquiet, ?_⟩
  · intro b hb
    simp only [List.mem_cons, List.cons_append, List.nil_append] at hb
    rcases hb with rfl | rfl | rfl | rfl | rfl | hb
    · exact rfl
    · trivial
    · trivial
    · exact rfl
    · exact rfl
    · exact hbs b hb
  · simpa [Action.enters] using hnone
  · exact (machine calls).run_cons_eq_some.2
      ⟨q, hbucket, (machine calls).run_append_eq_some.2 ⟨v, hreport, hrun⟩⟩
  · rw [hbreaker, ← hqbreaker]
    rfl

/-- From a quiet slot whose breaker is not closed one more call brings it nearer to it.  The call
waits for the breaker to let it through, and the upstream answers it. -/
theorem probed (h : (machine calls).Reachable (· = built model cfg) s) (hquiet : Quiet s)
    (hclosed : s.breaker.state ≠ .closed) (now : Instant) (response : ρ) :
    ∃ time bs t, now ≤ time ∧ (∀ b ∈ bs, Healthy time response b) ∧
      bs.countP Action.enters = 1 ∧ (machine calls).run s bs = some t ∧ Quiet t ∧
      needed t.breaker < needed s.breaker := by
  have hcoherent := Admissions.Coherent.of_reachable (admissions_reachable (reachable_fresh h))
  have hnone : ∀ d, s.admissions.holds d ≠ some .probe := by
    intro d hd
    replace hd : (s.calls d).admission = some .probe := hd
    have hq := hquiet d
    cases hp : s.calls d with
    | idle | «over» =>
        rw [hp] at hd
        cases hd
    | _ =>
        rw [hp] at hq
        exact hq
  obtain ⟨t₀, hadmits⟩ := hcoherent.eventually_admits hnone
  obtain ⟨b, a, hb⟩ := hadmits (max now t₀) (le_max_right ..)
  obtain ⟨rfl, hhalf, hneeded⟩ := needed_checkAt hclosed hb
  obtain ⟨polled, hpolled⟩ := exists_polled h
  obtain ⟨c, hfresh⟩ := Infinite.exists_notMem_finset polled
  let u := (s.withBreaker b).goto c (.checked .probe)
  have hcheck : (machine calls).step s (.check c (max now t₀)) = some u := by
    have hb' : s.breaker.checkAt (max now t₀) = (b, .ok .probe) := hb
    simp [u, machine, step, hpolled c hfresh, hb']
  have hu : (machine calls).Reachable (· = built model cfg) u :=
    h.tail (by rw [Machine.run_singleton]; exact hcheck)
  obtain ⟨bs, t, hbs, hnew, hrun, hquiet', hreport⟩ :=
    exists_report (max now t₀) response hu (quiet_goto (fun d _ => hquiet d) rfl)
      (State.calls_goto_self ..)
  have hsuccesses :=
    (Admissions.Coherent.of_reachable (admissions_reachable (reachable_fresh hu))).successes hhalf
  refine ⟨max now t₀, .check c (max now t₀) :: bs, t, le_max_left now t₀, ?_, ?_, ?_, hquiet', ?_⟩
  · intro b hb
    rcases List.mem_cons.1 hb with rfl | hb
    · exact rfl
    · exact hbs b hb
  · rw [List.countP_cons, hnew]
    rfl
  · exact (machine calls).run_cons_eq_some.2 ⟨u, hcheck, hrun⟩
  · rw [hreport]
    exact (needed_onSuccessAt hhalf hsuccesses).trans_le hneeded

/-- From a quiet slot the breaker closes after as many new calls as it needs. -/
lemma closes (h : (machine calls).Reachable (· = built model cfg) s) (hquiet : Quiet s)
    (now : Instant) (response : ρ) :
    ∃ bs t, HealthyRun now response bs ∧ bs.countP Action.enters ≤ needed s.breaker ∧
      (machine calls).run s bs = some t ∧ Quiet t ∧ t.breaker.state = .closed := by
  induction hn : needed s.breaker using Nat.strongRecOn generalizing s now with
  | ind n ih =>
      by_cases hclosed : s.breaker.state = .closed
      · exact ⟨[], s, .nil, by simp, rfl, hquiet, hclosed⟩
      · obtain ⟨time, bs, u, htime, hbs, hone, hrun, hquiet', hlt⟩ :=
          probed h hquiet hclosed now response
        obtain ⟨cs, t, hcs, hcount, hrest, hquiet'', hclosed'⟩ :=
          ih _ (hn ▸ hlt) (h.tail hrun) hquiet' time rfl
        refine ⟨bs ++ cs, t, hcs.append hbs htime, ?_, ?_, hquiet'', hclosed'⟩
        · rw [List.countP_append, hone]
          omega
        · exact (machine calls).run_append_eq_some.2 ⟨u, hrun, hrest⟩

/-- **A slot is never wedged.**  From every state that calls, failures and cancellations have
brought a slot to, and at whatever time, its calls in flight can come to their ends and the
breaker closes, with no help but an upstream that answers: no more new calls are needed than the
breaker asks for successes, and at the end nothing is held and every permit is back. -/
theorem heals (h : (machine calls).Reachable (· = built model cfg) s) (now : Instant)
    (response : ρ) :
    ∃ bs t, HealthyRun now response bs ∧
      bs.countP Action.enters ≤ max cfg.halfOpenSuccesses.toNat 1 ∧
      (machine calls).run s bs = some t ∧ Quiet t ∧ t.breaker.state = .closed ∧
      t.upstream.concurrency = Concurrency.new model.maxConcurrency := by
  obtain ⟨bs, u, hbs, hdrain, hquiet⟩ := drains h now response
  have hu := h.tail hdrain
  obtain ⟨cs, t, hcs, hcount, hrun, hquiet', hclosed⟩ := closes hu hquiet now response
  have hcfg : u.breaker.cfg = cfg :=
    Admissions.cfg_of_reachable (admissions_reachable (reachable_fresh hu))
  have hnone : bs.countP Action.enters = 0 :=
    List.countP_eq_zero.2 fun b hb => by simp [(hbs b hb).2]
  refine ⟨bs ++ cs, t, hcs.append (fun b hb => (hbs b hb).1) le_rfl, ?_, ?_, hquiet', hclosed, ?_⟩
  · rw [List.countP_append, hnone, Nat.zero_add]
    have hle := needed_le u.breaker
    rw [hcfg] at hle
    exact hcount.trans hle
  · exact (machine calls).run_append_eq_some.2 ⟨u, hdrain, hrun⟩
  · exact concurrency_of_quiet (permits_of_reachable (hu.tail hrun)) (holders_of_quiet hquiet')

end Built

/-- A call holds the only permit behind an open breaker, and the slot heals. -/
theorem heals_parked :
    ∃ s t : State Unit, ∃ bs,
      (machine fun _ => plainCall).run
        (built { Reload.soloModel none with maxConcurrency := some 1 } hairTrigger) parked = some s ∧
      s.breaker.state = .opened ∧ bs.countP Action.enters ≤ 1 ∧
      (machine fun _ => plainCall).run s bs = some t ∧ t.breaker.state = .closed := by
  let model : ModelConfig := { Reload.soloModel none with maxConcurrency := some 1 }
  obtain ⟨s, hs⟩ : ∃ s : State Unit,
      (machine fun _ => plainCall).run (built model hairTrigger) parked = some s := ⟨_, rfl⟩
  have hopen : s.breaker.state = .opened := by
    cases hs
    rfl
  obtain ⟨bs, t, -, hcount, hrun, -, hclosed, -⟩ := heals ⟨_, parked, rfl, hs⟩ 4 ()
  exact ⟨s, t, bs, hs, hopen, hcount, hrun, hclosed⟩

end Governed

end Moaray
