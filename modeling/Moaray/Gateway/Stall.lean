import Moaray.Gateway.FailFast
import Moaray.Gateway.Registry
import Moaray.Moa.Deadline

/-!
# A stalled upstream and the breakers of the others

The arms of a run are governed providers.  A call that runs out of its timeout is dropped, and its
guard reports a failure to the breaker of the upstream it was sent to.  The aggregator's timeout is
what the fan-out has left over, so an upstream that stalls as a proposer can have the failure
booked on another one, which would have answered.

* `RecipeRun.timedCalls` — the calls of a run, each with the timeout it is under.
* `Jobs`, `Jobs.Plays` — calls of any number of runs over one slot, and the steps they take.
* `RecordsFailure`, `RecordsSuccesses` — what the breaker of the slot is told along a run.
* `unharmed_iff` — the slot hears of no failure, in whatever way the calls interleave, exactly when
  every run leaves its aggregator the time it takes.
* `stall_harms_bystander` — a run that does not.

One upstream aggregates and is healthy: it would answer each call within the recipe's timeout.  A
run that gives it less drops its call, and what follows from the drop does not depend on the other
calls over the slot: the guard is dropped with it and tells the breaker of a failure.  In the other
direction every call over the slot is answered, so every guard carries a success from the moment
its call has ended (`Succeeding`).

**Design.**  The orchestrator and the governed calls are two systems.  Here they meet: a call that
the orchestrator makes under a timeout is a governed call that completes with the reply, if the
timeout lets it through, and is dropped otherwise.  `Plays` is this rule, one step at a time, and
everything else a call may do, such as waiting for a permit, is left to the interleaving.
-/

namespace Moaray

open Framework Json Moa Governed

namespace Stall

/-! ## The calls of a run -/

/-- A call of a governed provider, the timeout it is under, and what the provider does once its
slot has admitted the call. -/
structure TimedCall where
  call : ChatCall ProviderRef
  budget : ℕ
  reply : Reply

namespace TimedCall

def slot (j : TimedCall) : ℕ := j.call.provider.provider.state

/-- The call as its governed provider runs it. -/
def governed (j : TimedCall) : Call where
  method := .chat
  retry := j.call.provider.provider.retry

/-- What the timeout lets through: the result, or nothing when the call is dropped. -/
def result (j : TimedCall) : Option (Except Error ChatResponse) := (timeout j.budget j.reply).1

end TimedCall

/-- A run of a recipe over governed providers, from the moment it starts: everything its calls and
their timeouts depend on. -/
structure RecipeRun where
  upstreams : Upstreams ProviderRef
  orchestrator : Orchestrator ProviderRef
  ctx : ReqCtx
  now : Instant
  recipeName : String
  recipe : Recipe
  known : orchestrator.recipe recipeName = some recipe
  request : ChatRequest

namespace RecipeRun

variable (serde : SerdeJson) (r : RecipeRun)

def timed (budget : ℕ) (call : ChatCall ProviderRef) : TimedCall where
  call := call
  budget := budget
  reply := r.upstreams.chat call

def armBudget : ℕ := effectiveTimeout r.ctx.deadline r.now r.recipe.armTimeoutMs

/-- A quorum of the proposers answers before that. -/
def QuorumMet : Prop :=
  r.recipe.quorum ≤ r.recipe.proposers.zipIdx.countP
    (answersBy r.upstreams r.orchestrator r.ctx r.request r.armBudget)

instance : Decidable r.QuorumMet := by
  unfold QuorumMet
  infer_instance

def aggregatorCall : Option (ChatCall ProviderRef) :=
  Moa.aggregatorCall r.upstreams serde r.orchestrator r.ctx r.now r.recipe r.request

def aggregatorBudget : ℕ :=
  Moa.aggregatorBudget r.upstreams r.orchestrator r.ctx r.now r.recipe r.request

/-- The calls of the arms, and after a quorum that of the aggregator.  Each is given the time it may
take. -/
def timedCalls : List TimedCall :=
  (fanOutCalls r.orchestrator r.ctx r.recipe r.request).map (r.timed r.armBudget) ++
    if r.QuorumMet then (r.aggregatorCall serde).toList.map (r.timed r.aggregatorBudget) else []

lemma map_call_timed (budget : ℕ) (calls : List (ChatCall ProviderRef)) :
    (calls.map (r.timed budget)).map TimedCall.call = calls := by
  rw [List.map_map]
  exact List.map_id calls

/-- The calls of a run are those the orchestrator makes. -/
lemma run_calls (completion : CompletionOrder) :
    (run r.upstreams serde r.orchestrator r.ctx completion r.now r.recipeName r.request).2 =
      (r.timedCalls serde).map TimedCall.call := by
  have hquorum : r.QuorumMet ↔ ¬ succeeded r.upstreams r.orchestrator r.ctx r.now r.recipe
      r.request < r.recipe.quorum := by
    rw [succeeded_eq, not_lt]
    rfl
  rw [run_eq, r.known]
  simp only [conclude_fanOut]
  rw [timedCalls, List.map_append, map_call_timed]
  congr 1
  by_cases hmet : r.QuorumMet
  · rw [if_neg (hquorum.1 hmet), if_pos hmet, map_call_timed]
    rfl
  · rw [if_pos (not_not.1 (mt hquorum.2 hmet)), if_neg hmet]
    rfl

/-- The aggregator is an upstream of its own, and it would answer every call within the recipe's
timeout. -/
structure Healthy (q : ℕ) : Prop where
  aggregator : ∃ p, r.orchestrator.resolve r.recipe.aggregator = some p ∧ p.provider.state = q
  proposers : ∀ model ∈ r.recipe.proposers, ∀ p,
    r.orchestrator.resolve model = some p → p.provider.state ≠ q
  answers : ∀ call : ChatCall ProviderRef, call.provider.provider.state = q →
    ∃ d resp, r.upstreams.chat call = { delay := some d, result := .ok resp } ∧
      d ≤ durationFromMillis r.recipe.armTimeoutMs

/-- No quorum answers, or the aggregator gets the time it takes: it takes none, or the recipe's
timeout leaves it before the deadline, or no proposer takes so long that it is not left. -/
def Spares : Prop :=
  r.QuorumMet → ∀ call d, r.aggregatorCall serde = some call →
    (r.upstreams.chat call).delay = some d →
      d = 0 ∨
      durationFromMillis r.recipe.armTimeoutMs + d ≤ r.ctx.deadline.durationSince r.now ∨
      d ≤ r.ctx.deadline.durationSince r.now ∧
        NoStraggler r.upstreams r.orchestrator r.ctx r.now r.recipe r.request d

variable {serde r} {q : ℕ}

lemma le_aggregatorBudget_iff {d : ℕ} (hd : d ≤ durationFromMillis r.recipe.armTimeoutMs) :
    d ≤ r.aggregatorBudget ↔
      d = 0 ∨
      durationFromMillis r.recipe.armTimeoutMs + d ≤ r.ctx.deadline.durationSince r.now ∨
      d ≤ r.ctx.deadline.durationSince r.now ∧
        NoStraggler r.upstreams r.orchestrator r.ctx r.now r.recipe r.request d := by
  rw [aggregatorBudget, Moa.le_aggregatorBudget_iff hd]
  rcases Nat.eq_zero_or_pos d with rfl | hpos
  · simp
  · by_cases hT : d ≤ r.ctx.deadline.durationSince r.now
    · rw [fanOutTime_add_le hpos hT]
      simp only [hT, true_and]
    · constructor
      · rintro (hzero | hlate)
        · exact .inl hzero
        · omega
      · rintro (hzero | hlate | ⟨hlate, -⟩)
        · exact .inl hzero
        · omega
        · exact absurd hlate hT

lemma Healthy.slot_of_mem_fanOutCalls (h : r.Healthy q) {call : ChatCall ProviderRef}
    (hcall : call ∈ fanOutCalls r.orchestrator r.ctx r.recipe r.request) :
    call.provider.provider.state ≠ q := by
  obtain ⟨row, hrow, harm⟩ := List.mem_filterMap.1 hcall
  obtain ⟨p, hp, rfl⟩ := Option.map_eq_some_iff.1 harm
  exact h.proposers row.1 (List.fst_mem_of_mem_zipIdx hrow) p hp

/-- The one call over the aggregator's slot is the aggregator's. -/
lemma Healthy.mem_timedCalls_iff (h : r.Healthy q) {j : TimedCall} :
    j ∈ r.timedCalls serde ∧ j.slot = q ↔
      r.QuorumMet ∧ ∃ call, r.aggregatorCall serde = some call ∧
        j = r.timed r.aggregatorBudget call := by
  rw [timedCalls, List.mem_append]
  constructor
  · rintro ⟨harm | hagg, hslot⟩
    · obtain ⟨call, hcall, rfl⟩ := List.mem_map.1 harm
      exact absurd hslot (h.slot_of_mem_fanOutCalls hcall)
    · split at hagg
      · rename_i hmet
        obtain ⟨call, hcall, rfl⟩ := List.mem_map.1 hagg
        exact ⟨hmet, call, by simpa using hcall, rfl⟩
      · cases hagg
  · rintro ⟨hmet, call, hcall, rfl⟩
    constructor
    · right
      rw [if_pos hmet, hcall]
      exact List.mem_singleton_self _
    · obtain ⟨p, hp, hstate⟩ := h.aggregator
      obtain ⟨p', hp', rfl⟩ := Option.map_eq_some_iff.1 hcall
      obtain rfl := Option.some.inj (hp.symm.trans hp')
      exact hstate

lemma Healthy.result_timed (h : r.Healthy q) (call : ChatCall ProviderRef)
    (hcall : call.provider.provider.state = q) :
    ∃ d resp, (r.upstreams.chat call).delay = some d ∧
      d ≤ durationFromMillis r.recipe.armTimeoutMs ∧
      ∀ budget, (r.timed budget call).result = if d ≤ budget then some (.ok resp) else none := by
  obtain ⟨d, resp, hchat, hd⟩ := h.answers call hcall
  refine ⟨d, resp, by rw [hchat], hd, ?_⟩
  intro budget
  rw [TimedCall.result, timed, hchat]
  by_cases hle : d ≤ budget
  · simp [timeout, hle]
  · simp [timeout, hle]

/-- The one call over the aggregator's slot is answered or dropped. -/
lemma Healthy.result_eq (h : r.Healthy q) {j : TimedCall} (hj : j ∈ r.timedCalls serde)
    (hslot : j.slot = q) : j.result = none ∨ ∃ resp, j.result = some (.ok resp) := by
  obtain ⟨-, call, -, rfl⟩ := h.mem_timedCalls_iff.1 ⟨hj, hslot⟩
  obtain ⟨d, resp, -, -, hresult⟩ := h.result_timed call hslot
  rw [hresult]
  split
  · exact .inr ⟨resp, rfl⟩
  · exact .inl rfl

/-- A run that spares its aggregator's slot has its call there answered, and one that does not
has it dropped. -/
lemma Healthy.spares_iff (h : r.Healthy q) :
    r.Spares serde ↔
      ∀ j ∈ r.timedCalls serde, j.slot = q → ∃ resp, j.result = some (.ok resp) := by
  constructor
  · intro hspares j hj hslot
    obtain ⟨hmet, call, hcall, rfl⟩ := h.mem_timedCalls_iff.1 ⟨hj, hslot⟩
    obtain ⟨d, resp, hdelay, hd, hresult⟩ := h.result_timed call hslot
    have hle := (le_aggregatorBudget_iff hd).2 (hspares hmet call d hcall hdelay)
    rw [hresult, if_pos hle]
    exact ⟨resp, rfl⟩
  · intro hanswered hmet call d hcall hdelay
    obtain ⟨hj, hslot⟩ := h.mem_timedCalls_iff.2 ⟨hmet, call, hcall, rfl⟩
    obtain ⟨d', resp, hdelay', hd, hresult⟩ := h.result_timed call hslot
    obtain rfl := Option.some.inj (hdelay.symm.trans hdelay')
    obtain ⟨resp', hok⟩ := hanswered _ hj hslot
    refine (le_aggregatorBudget_iff hd).1 ?_
    by_contra hlate
    rw [hresult, if_neg hlate] at hok
    cases hok

end RecipeRun

/-! ## The calls over one slot -/

/-- Calls over the slot `q`, numbered; each is a call of one of the runs.  One call of a run may
occur once or many times. -/
structure Jobs (serde : SerdeJson) (q : ℕ) (runs : Set RecipeRun) where
  job : ℕ → Option TimedCall
  of_run : ∀ c j, job c = some j → ∃ r ∈ runs, j ∈ r.timedCalls serde ∧ j.slot = q

variable {serde : SerdeJson} {q : ℕ} {u : UpstreamState} {runs : Set RecipeRun}

namespace Jobs

variable (J : Jobs serde q runs)

/-- How the governed provider runs each of them. -/
def calls (c : ℕ) : Call :=
  match J.job c with
  | some j => j.governed
  | none => { method := .chat, retry := { enabled := false, maxRetries := 0, backoffMs := 0 } }

/-- The steps a call of the runs can take: it completes when its timeout lets the result through,
and is dropped when it does not. -/
def Plays : Action ChatResponse → Prop
  | .check c _ => ∃ j, J.job c = some j
  | .complete c result => ∃ j, J.job c = some j ∧ j.result = some result
  | .cancel c => ∃ j, J.job c = some j ∧ j.result = none
  | _ => True

/-- A call that is the only one over the slot. -/
def single {r : RecipeRun} {j : TimedCall} (hr : r ∈ runs) (hj : j ∈ r.timedCalls serde)
    (hslot : j.slot = q) : Jobs serde q runs where
  job c := if c = 0 then some j else none
  of_run c j' h := by
    split at h
    · obtain rfl := Option.some.inj h
      exact ⟨r, hr, hj, hslot⟩
    · cases h

end Jobs

/-- Some step of the run tells the breaker of a failure: a call that failed or was dropped has come
to its end, and its guard calls `on_failure`. -/
def RecordsFailure (calls : ℕ → Call) (s : State ChatResponse) (as : List (Action ChatResponse)) :
    Prop :=
  ∃ pre t c now v guard permit outcome,
    (machine calls).Takes s as pre t (.dropBreakerGuard c now) v ∧
      t.calls c = .finishing guard permit outcome ∧ guard.succeeded = false ∧
      v.breaker = t.breaker.onFailureAt now guard.admission

/-- All that the calls of the run tell the breaker are successes. -/
def RecordsSuccesses (calls : ℕ → Call) (s : State ChatResponse)
    (as : List (Action ChatResponse)) : Prop :=
  ∀ pre t c now v, (machine calls).Takes s as pre t (.dropBreakerGuard c now) v →
    ∃ admission, v.breaker = t.breaker.onSuccessAt now admission

/-- However the calls of any number of the runs interleave over the slot, its breaker hears of
successes and of no failure, and stays closed. -/
def Unharmed (serde : SerdeJson) (q : ℕ) (u : UpstreamState) (runs : Set RecipeRun) : Prop :=
  ∀ (J : Jobs serde q runs) (as : List (Action ChatResponse)) (t : State ChatResponse),
    (∀ a ∈ as, J.Plays a) → (machine J.calls).run (State.init u) as = some t →
      RecordsSuccesses J.calls (State.init u) as ∧ ¬ RecordsFailure J.calls (State.init u) as ∧
        t.breaker.state = .closed

/-! ## Runs that spare the slot -/

/-- Every call that is about to report will report a success. -/
def Succeeding (s : State ChatResponse) : Prop :=
  ∀ c guard permit outcome,
    s.calls c = .finishing guard permit outcome → guard.succeeded = true

lemma not_finishing_afterGuard {c : Call} {permit permit' : Bool} {guard : BreakerGuard}
    {outcome outcome' : Option (Except Error ChatResponse)} :
    afterGuard c permit outcome ≠ .finishing guard permit' outcome' := by
  intro h
  have hadm := admission_afterGuard c permit outcome
  rw [h] at hadm
  cases hadm

/-- A step of an answered call leaves every call succeeding. -/
lemma Succeeding.step {J : Jobs serde q runs} {s t : State ChatResponse}
    {a : Action ChatResponse} (hs : Succeeding s) (h : Moves J.calls s a t) (ha : J.Plays a)
    (hanswered : ∀ c j, J.job c = some j → ∃ resp, j.result = some (.ok resp)) :
    Succeeding t := by
  intro c guard permit outcome hc
  by_cases hca : c = a.call
  · subst hca
    cases h with
    | @complete c result guard' permit' attempt hphase =>
        obtain ⟨j, hj, hresult⟩ := ha
        obtain ⟨resp, hok⟩ := hanswered c j hj
        obtain rfl := Option.some.inj (hresult.symm.trans hok)
        have hmethod : (J.calls c).method = .chat := by
          rw [Jobs.calls, hj]
          rfl
        simp only [Action.call, State.calls_goto_self, resume, hmethod, Governed.chat,
          retryLoop, Phase.finishing.injEq] at hc
        rw [← hc.1]
        rfl
    | abandon hphase | abandonSleep hphase =>
        obtain ⟨j, hj, hnone⟩ := ha
        obtain ⟨resp, hok⟩ := hanswered _ j hj
        rw [hnone] at hok
        cases hok
    | dropBreakerGuard hphase =>
        rw [Action.call, State.calls_goto_self] at hc
        exact absurd hc not_finishing_afterGuard
    | _ =>
        rw [Action.call, State.calls_goto_self] at hc
        cases hc
  · rw [h.calls_of_ne hca] at hc
    exact hs c guard permit outcome hc

/-- When every call over the slot is answered, none reports a failure. -/
lemma unharmed_of_answered (hclosed : u.breaker.state = .closed)
    (hanswered : ∀ r ∈ runs, ∀ j ∈ r.timedCalls serde, j.slot = q →
      ∃ resp, j.result = some (.ok resp)) :
    Unharmed serde q u runs := by
  intro J as t hplays hrun
  have hjobs : ∀ c j, J.job c = some j → ∃ resp, j.result = some (.ok resp) := by
    intro c j hj
    obtain ⟨r, hr, hmem, hslot⟩ := J.of_run c j hj
    exact hanswered r hr j hmem hslot
  have hsucceeding : ∀ pre s a v, (machine J.calls).Takes (State.init u) as pre s a v →
      Succeeding s := by
    rintro pre s a v ⟨post, rfl, hpre, -⟩
    refine (machine J.calls).invariant_of_run_on (P := J.Plays)
      (fun s a t ha hs hstep => hs.step (moves_of_step hstep) ha hjobs) ?_ ?_ hpre
    · exact fun a ha => hplays a (List.mem_append_left _ ha)
    · intro c guard permit outcome hidle
      cases hidle
  refine ⟨?_, ?_, ?_⟩
  · intro pre s c now v htakes
    obtain ⟨guard, permit, outcome, hc, hb⟩ := (moves_of_step htakes.step).dropped
    refine ⟨guard.admission, ?_⟩
    rw [hb, guard.drop_eq, hsucceeding _ _ _ _ htakes c guard permit outcome hc, if_pos rfl]
  · rintro ⟨pre, s, c, now, v, guard, permit, outcome, htakes, hc, hfailed, -⟩
    rw [hsucceeding _ _ _ _ htakes c guard permit outcome hc] at hfailed
    cases hfailed
  · by_contra hleft
    obtain ⟨pre, s, c, now, v, guard, permit, outcome, htakes, hc, hfailed, -, -⟩ :=
      tripped_since hrun hclosed hleft
    rw [hsucceeding _ _ _ _ htakes c guard permit outcome hc] at hfailed
    cases hfailed

/-! ## Runs that do not -/

/-- A call that is admitted, begins its attempt and is dropped. -/
def abandoned (start : Instant) : List (Action ChatResponse) :=
  [.check 0 start, .bucket 0 { allowed := true, cell := 0 }, .acquire 0, .begin 0, .cancel 0]

/-- A closed breaker and a free permit let a call through to its attempt. -/
lemma run_abandoned (calls : ℕ → Call) (hclosed : u.breaker.state = .closed)
    (hfree : u.concurrency.acquire.isSome) (start : Instant) :
    ∃ s permit, (machine calls).run (State.init u) (abandoned start) = some s ∧
      s.calls 0 = .finishing (BreakerGuard.new .normal) permit none := by
  obtain ⟨⟨k, permit⟩, hk⟩ := Option.isSome_iff_exists.1 hfree
  obtain ⟨u', hu', hconcurrency⟩ := u.checkLimit_allowed 0
  have hcheck : u.breaker.checkAt start = (u.breaker, .ok .normal) := by
    simp [CircuitBreaker.checkAt, hclosed]
  rw [← hconcurrency] at hk
  let s₁ : State ChatResponse := (State.init u).goto 0 (.checked .normal)
  let s₂ := { s₁ with upstream := u' }.goto 0 (.queued .normal)
  let s₃ := (s₂.withConcurrency k).goto 0 (.admitted (.new .normal) permit 0)
  let s₄ := s₃.goto 0 (.attempting (.new .normal) permit 0)
  let s₅ := s₄.goto 0 (.finishing (.new .normal) permit none)
  have hcheck₁ : (machine calls).step (State.init u) (.check 0 start) = some s₁ := by
    simp only [machine, Governed.step, State.init, State.breaker, hcheck]
    rfl
  have hbucket : (machine calls).step s₁ (.bucket 0 { allowed := true, cell := 0 }) = some s₂ := by
    simp only [machine, Governed.step, s₁, State.calls_goto_self]
    simp only [State.goto, State.init, hu']
    rfl
  have hacquire : (machine calls).step s₂ (.acquire 0) = some s₃ := by
    simp only [machine, Governed.step, s₂, State.calls_goto_self]
    simp only [State.goto, hk]
    rfl
  have hbegin : (machine calls).step s₃ (.begin 0) = some s₄ := by
    simp only [machine, Governed.step, s₃, State.calls_goto_self]
    rfl
  have hcancel : (machine calls).step s₄ (.cancel 0) = some s₅ := by
    simp only [machine, Governed.step, s₄, State.calls_goto_self]
    rfl
  refine ⟨s₅, permit, ?_, State.calls_goto_self ..⟩
  simp only [abandoned, Machine.run_cons, hcheck₁, hbucket, hacquire, hbegin, hcancel,
    Option.bind_some, Machine.run_nil]

/-- A call over the slot that is dropped reports a failure. -/
lemma not_unharmed_of_dropped (hclosed : u.breaker.state = .closed)
    (hfree : u.concurrency.acquire.isSome) {r : RecipeRun} (hr : r ∈ runs) {j : TimedCall}
    (hj : j ∈ r.timedCalls serde) (hslot : j.slot = q) (hdropped : j.result = none) :
    ¬ Unharmed serde q u runs := by
  intro h
  let J : Jobs serde q runs := .single hr hj hslot
  obtain ⟨s, permit, hrun, hphase⟩ := run_abandoned J.calls hclosed hfree r.now
  obtain ⟨v, hv⟩ : ∃ v, (machine J.calls).step s (.dropBreakerGuard 0 r.now) = some v := by
    simp only [machine, Governed.step, hphase]
    exact ⟨_, rfl⟩
  have hplays : ∀ a ∈ abandoned r.now ++ [.dropBreakerGuard 0 r.now], J.Plays a := by
    have hjob : J.job 0 = some j := rfl
    simp only [abandoned, List.cons_append, List.nil_append, List.forall_mem_cons, Jobs.Plays]
    exact ⟨⟨j, hjob⟩, trivial, trivial, trivial, ⟨j, hjob, hdropped⟩, trivial, List.forall_mem_nil _⟩
  obtain ⟨-, hnone, -⟩ := h J _ v hplays ((machine J.calls).run_concat_eq_some.2 ⟨s, hrun, hv⟩)
  obtain ⟨guard, permit', outcome, hc, hb⟩ := (moves_of_step hv).dropped
  obtain ⟨rfl, rfl, rfl⟩ : guard = BreakerGuard.new .normal ∧ permit' = permit ∧
      outcome = none := by
    rw [hphase] at hc
    cases hc
    exact ⟨rfl, rfl, rfl⟩
  exact hnone ⟨abandoned r.now, s, 0, r.now, v, BreakerGuard.new .normal, permit', none,
    ⟨[], rfl, hrun, hv⟩, hphase, rfl, hb⟩

/-- With a closed breaker and a free permit, no interleaving of the runs' calls lets the
aggregator's upstream hear of a failure exactly when every run leaves its aggregator the time it
takes, or never calls it. -/
theorem unharmed_iff (serde : SerdeJson) {q : ℕ} {u : UpstreamState} {runs : Set RecipeRun}
    (hclosed : u.breaker.state = .closed) (hfree : u.concurrency.acquire.isSome)
    (hruns : ∀ r ∈ runs, r.Healthy q) :
    Unharmed serde q u runs ↔ ∀ r ∈ runs, r.Spares serde := by
  constructor
  · intro h r hr
    refine (hruns r hr).spares_iff.2 fun j hj hslot => ?_
    rcases (hruns r hr).result_eq hj hslot with hnone | hok
    · exact absurd h (not_unharmed_of_dropped hclosed hfree hr hj hslot hnone)
    · exact hok
  · intro h
    exact unharmed_of_answered hclosed fun r hr => (hruns r hr).spares_iff.1 (h r hr)

/-! ## A proposer that stalls -/

/-- The provider of a model, on a slot. -/
def providerOn (model : String) (slot : ℕ) : ProviderRef where
  serial := slot
  provider :=
    { inner := .openai { upstreamId := model, baseUrl := "https://" ++ model, apiKey := "k" }
      state := slot
      retry := { enabled := false, maxRetries := 0, backoffMs := 0 } }

/-- Two models propose, and a third one aggregates. -/
def panel : Recipe where
  name := "panel"
  proposers := ["slow", "quick"]
  aggregator := "fast"
  strategy := .concatSynthesize
  armTimeoutMs := 100
  quorum := 1

def panelOrchestrator : Orchestrator ProviderRef where
  resolver := (((∅ : Table String ProviderRef).insert "quick" (providerOn "quick" 2)).insert "slow"
    (providerOn "slow" 0)).insert "fast" (providerOn "fast" 1)
  recipes := (∅ : Table String Recipe).insert "panel" panel

lemma resolve_panel (model : String) :
    panelOrchestrator.resolve model =
      if "fast" = model then some (providerOn "fast" 1)
      else if "slow" = model then some (providerOn "slow" 0)
      else if "quick" = model then some (providerOn "quick" 2)
      else none := by
  unfold Orchestrator.resolve panelOrchestrator
  rw [Table.getElem?_insert_eq, Table.getElem?_insert_eq, Table.getElem?_insert_eq]
  simp

/-- The first upstream hangs; the others answer in 10 ms. -/
def panelUpstreams : Upstreams ProviderRef where
  upstreamId p := toString p.serial
  chat call :=
    if call.provider.provider.state = 0 then
      { delay := none, result := .error .upstreamTimeout }
    else
      { delay := some 10000000, result := .ok (completionOf "yes") }

def panelRun (deadline : Instant) : RecipeRun where
  upstreams := panelUpstreams
  orchestrator := panelOrchestrator
  ctx := helloCtx deadline
  now := 0
  recipeName := "panel"
  recipe := panel
  known := rfl
  request := helloRequest

lemma healthy_panelRun (deadline : Instant) : (panelRun deadline).Healthy 1 where
  aggregator := ⟨providerOn "fast" 1, resolve_panel "fast", rfl⟩
  proposers := by
    intro model hmodel p hp
    have hmodels : model = "slow" ∨ model = "quick" := by simpa [panelRun, panel] using hmodel
    rcases hmodels with rfl | rfl
    · obtain rfl := Option.some.inj ((resolve_panel "slow").symm.trans hp)
      decide
    · obtain rfl := Option.some.inj ((resolve_panel "quick").symm.trans hp)
      decide
  answers := by
    intro call hcall
    have hbudget : 10000000 ≤ durationFromMillis panel.armTimeoutMs := by decide
    refine ⟨10000000, completionOf "yes", ?_, hbudget⟩
    show (if _ then _ else _) = _
    rw [hcall]
    rfl

/-- With a second to spare, the aggregator gets its time although the first model hangs. -/
theorem unharmed_panel : Unharmed textSerde 1 tightSlot {panelRun 1000000000} := by
  refine (unharmed_iff textSerde rfl rfl ?_).2 ?_
  · rintro r rfl
    exact healthy_panelRun 1000000000
  · rintro r rfl - call d hcall hdelay
    obtain rfl := Option.some.inj hcall
    obtain rfl : 10000000 = d := Option.some.inj hdelay
    exact .inr (.inl (by decide))

/-- With a deadline as long as an arm may take, the model that hangs uses up the time of the
aggregator, and the aggregator's upstream is blamed for it. -/
theorem stall_harms_bystander :
    ¬ ∀ (serde : SerdeJson) (q : ℕ) (u : UpstreamState) (runs : Set RecipeRun),
      u.breaker.state = .closed → u.concurrency.acquire.isSome → (∀ r ∈ runs, r.Healthy q) →
        Unharmed serde q u runs := by
  intro h
  have hhealthy : ∀ r ∈ ({panelRun 100000000} : Set RecipeRun), r.Healthy 1 := by
    rintro r rfl
    exact healthy_panelRun 100000000
  have hunharmed := h textSerde 1 tightSlot {panelRun 100000000} rfl rfl hhealthy
  have hmet : (panelRun 100000000).QuorumMet := by decide
  obtain ⟨call, hcall⟩ : ∃ call, (panelRun 100000000).aggregatorCall textSerde = some call :=
    ⟨_, rfl⟩
  obtain ⟨hj, hslot⟩ :=
    (healthy_panelRun 100000000).mem_timedCalls_iff.2 ⟨hmet, call, hcall, rfl⟩
  refine not_unharmed_of_dropped rfl rfl (Set.mem_singleton _) hj hslot ?_ hunharmed
  obtain rfl := Option.some.inj hcall
  rfl

end Stall

end Moaray
