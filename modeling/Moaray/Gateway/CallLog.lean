import Moaray.Gateway.FailFast

/-!
# What a governed call has done

A record of one call, kept along an interleaving: the admission its check granted, its inner
attempts and how each ended, what its guard told the breaker, and the permits it has out.  The
phase of the call explains the record, and keeps explaining it whatever the other calls do.

* `CallLog`, `CallLog.note` — the record, and what a step adds to it.
* `Concluded` — the attempts of a call whose outcome is decided.
* `Explains` — the record as read off the phase; `Explains.note` for one step, `explains_of_run`
  for every interleaving.
* `Silent`, `Tells` — what the breaker itself has heard of a call along a run: no step of the call
  told it an outcome, or exactly one did; `recorded_of_run` ties the record to it.
* `reported_once` — a call that ended in admission has told the breaker nothing, every other call
  exactly one outcome, under its own admission; a call that is over has no permit out, a streamed
  body one.

Two things are proved of a call side by side.  `Explains` is about the record: whatever phase the
call is in, its record is the one that phase stands for, so a call that has ended has a record of
one of a few shapes.  `Recorded` is about the breaker: what the record lists as reported is what
happened to the breaker, at one step of the run and at no other step of the call.

**Design.**  A record that lists a report would be true of a guard that reports to nobody.  So
`Tells` does not mention the record: it points to a step of the run, and says that the breaker
before and after it are related by `onSuccessAt` or `onFailureAt` under the call's admission, while
every other step of the call leaves the breaker without an outcome (`Unheard`).
-/

namespace Moaray

open Framework

/-! ## Permits in and out -/

namespace Concurrency

/-- The permits that are left; none to count when the cap is unbounded.  Only differences of this
number are used. -/
def available (k : Concurrency) : ℤ := (k.sem.map fun sem => (sem.available : ℤ)).getD 0

def capped (k : Concurrency) : Bool := k.sem.isSome

/-- A call admitted under a cap takes one permit, and none otherwise. -/
lemma acquire_eq_some {k k' : Concurrency} {permit : Bool} (h : k.acquire = some (k', permit)) :
    permit = k.capped ∧ k'.capped = k.capped ∧ k.available - k'.available = permit.toNat := by
  unfold acquire at h
  split at h
  · rename_i hsem
    obtain ⟨rfl, rfl⟩ : k = k' ∧ false = permit := by simpa using h
    simp [capped, hsem]
  · rename_i sem hsem
    split at h
    · rename_i hpos
      obtain ⟨rfl, rfl⟩ : { sem := some { available := sem.available - 1 } } = k' ∧
          true = permit := by simpa using h
      refine ⟨by simp [capped, hsem], by simp [capped, hsem], ?_⟩
      simp only [available, hsem, Option.map_some, Option.getD_some, Bool.toNat_true]
      omega
    · cases h

@[simp] lemma capped_release (k : Concurrency) : k.release.capped = k.capped := by
  simp [capped, release]

lemma available_release {k : Concurrency} (h : k.capped = true) :
    k.available - k.release.available = -1 := by
  obtain ⟨sem, hsem⟩ := Option.isSome_iff_exists.1 h
  simp [available, release, hsem]

end Concurrency

namespace Governed

variable {ρ : Type}

/-! ## The record -/

/-- What one call has done, from its check on.  An attempt is `none` until it completes, and a call
that was cancelled leaves it so. -/
structure CallLog (ρ : Type) where
  /-- The admissions the breaker granted it. -/
  granted : List Admission
  /-- Whether it was admitted. -/
  admitted : Bool
  /-- Its inner attempts, in order, and how each ended. -/
  attempts : List (Option (Except Error ρ))
  /-- What it told the breaker: the admission, and whether it was a success. -/
  reports : List (Admission × Bool)
  /-- The permits it took from the semaphore, less those it gave back. -/
  permits : ℤ
  /-- Whether the body of the stream it returned has been dropped. -/
  bodyDropped : Bool

namespace CallLog

def empty : CallLog ρ where
  granted := []
  admitted := false
  attempts := []
  reports := []
  permits := 0
  bodyDropped := false

/-- What a step taken in state `s` adds to the record of its call, the permits apart. -/
def add (log : CallLog ρ) (s : State ρ) : Action ρ → CallLog ρ
  | .check _ now =>
      match (s.breaker.checkAt now).2 with
      | .ok admission => { log with granted := log.granted ++ [admission] }
      | .error _ => log
  | .acquire _ => { log with admitted := true }
  | .begin _ => { log with attempts := log.attempts ++ [none] }
  | .complete _ result => { log with attempts := log.attempts.dropLast ++ [some result] }
  | .dropBreakerGuard c _ =>
      match s.calls c with
      | .finishing guard _ _ =>
          { log with reports := log.reports ++ [(guard.admission, guard.succeeded)] }
      | _ => log
  | .dropBody _ => { log with bodyDropped := true }
  | .bucket _ _ | .dropProbeGuard _ | .wake _ | .cancel _ | .dropPermit _ => log

/-- The record of call `c` after a step from `s` to `t`.  Permits are counted by the semaphore's
balance over the step, and not by what the call says of itself. -/
def note (c : ℕ) (log : CallLog ρ) (s : State ρ) (a : Action ρ) (t : State ρ) : CallLog ρ :=
  if a.call = c then
    { log.add s a with
      permits := log.permits +
        (s.upstream.concurrency.available - t.upstream.concurrency.available) }
  else log

end CallLog

/-- The record of call `c` after the run `as` from `s`. -/
def callLog (calls : ℕ → Call) (c : ℕ) (s : State ρ) (as : List (Action ρ)) : CallLog ρ :=
  (machine calls).ghost (CallLog.note c) CallLog.empty s as

/-! ## Attempts -/

/-- An attempt whose request never left the gateway. -/
def unsent : Option (Except Error ρ) := some (.error .upstreamUnavailable)

/-- Whether the last attempt completed, with a response or with an error that does not count
against the breaker. -/
def lastAnswered (attempts : List (Option (Except Error ρ))) : Bool :=
  match attempts.getLast? with
  | some (some result) => decide (verdict result = .success)
  | _ => false

/-- The attempts of a call whose outcome is decided: all but the last never left the gateway,
and the outcome is the last one's unless the call was cancelled. -/
inductive Concluded (k : Call) :
    List (Option (Except Error ρ)) → Option (Except Error ρ) → Prop
  | returned {n : UInt32} {result : Except Error ρ} (hn : n ≤ k.retries)
      (hlast : n < k.retries → retryable result = false) :
      Concluded k (List.replicate n.toNat unsent ++ [some result]) (some result)
  | abandoned {n : UInt32} (hn : n ≤ k.retries) :
      Concluded k (List.replicate n.toNat unsent ++ [none]) none
  | abandonedSleep {n : UInt32} (hn : n ≤ k.retries) (hpos : 0 < n) :
      Concluded k (List.replicate n.toNat unsent) none

/-! ## The phase explains the record -/

namespace CallLog

/-- A call under `admission` that has not been admitted. -/
def waiting (admission : Admission) : CallLog ρ := { empty with granted := [admission] }

/-- An admitted call that has not told the breaker yet. -/
def running (admission : Admission) (attempts : List (Option (Except Error ρ)))
    (permits : ℤ) : CallLog ρ where
  granted := [admission]
  admitted := true
  attempts := attempts
  reports := []
  permits := permits
  bodyDropped := false

/-- An admitted call that has told the breaker. -/
def told (admission : Admission) (attempts : List (Option (Except Error ρ)))
    (permits : ℤ) (bodyDropped : Bool) : CallLog ρ where
  granted := [admission]
  admitted := true
  attempts := attempts
  reports := [(admission, lastAnswered attempts)]
  permits := permits
  bodyDropped := bodyDropped

end CallLog

def streams (k : Call) (outcome : Option (Except Error ρ)) : Bool :=
  match k.method, outcome with
  | .passthroughStream, some (.ok _) => true
  | _, _ => false

/-- The outcomes of a call that leaves `admit` through its guard. -/
def TurnedAway (outcome : Option (Except Error ρ)) : Prop :=
  outcome = some (.error .rateLimited) ∨ outcome = none

/-- The record of a call in a given phase, over a slot that is `capped` or not.  The locals of the
phase say how much of the record there is. -/
def Explains (k : Call) (capped : Bool) : Phase ρ → CallLog ρ → Prop
  | .idle, log => log = .empty
  | .checked admission, log => log = .waiting admission
  | .queued admission, log => log = .waiting admission
  | .rejected admission outcome, log => log = .waiting admission ∧ TurnedAway outcome
  | .admitted guard permit attempt, log =>
      guard.action = none ∧ permit = capped ∧ attempt ≤ k.retries ∧
        log = .running guard.admission (List.replicate attempt.toNat unsent) permit.toNat
  | .attempting guard permit attempt, log =>
      guard.action = none ∧ permit = capped ∧ attempt ≤ k.retries ∧
        log = .running guard.admission (List.replicate attempt.toNat unsent ++ [none]) permit.toNat
  | .sleeping guard permit attempt _, log =>
      guard.action = none ∧ permit = capped ∧ attempt ≤ k.retries ∧ 0 < attempt ∧
        log = .running guard.admission (List.replicate attempt.toNat unsent) permit.toNat
  | .finishing guard permit outcome, log =>
      permit = capped ∧ ∃ attempts, Concluded k attempts outcome ∧
        guard.succeeded = lastAnswered attempts ∧
        log = .running guard.admission attempts permit.toNat
  | .releasing outcome, log =>
      capped = true ∧ streams k outcome = false ∧ ∃ admission attempts,
        Concluded k attempts outcome ∧ log = .told admission attempts 1 false
  | .streaming resp, log =>
      capped = true ∧ k.method = .passthroughStream ∧ ∃ admission attempts,
        Concluded k attempts (some (.ok resp)) ∧ log = .told admission attempts 1 false
  | .over outcome, log =>
      (log = .empty ∧ outcome = some (.error .circuitOpen)) ∨
      (∃ admission, log = .waiting admission ∧ TurnedAway outcome) ∨
      (∃ admission attempts, Concluded k attempts outcome ∧
        log = .told admission attempts 0 (capped && streams k outcome))

/-! ### What a step adds -/

section Step

variable {calls : ℕ → Call} {c : ℕ} {s t : State ρ} {log : CallLog ρ}

lemma CallLog.note_of_ne {a : Action ρ} (h : a.call ≠ c) (log : CallLog ρ) :
    log.note c s a t = log := if_neg h

/-- A step of the call that leaves the semaphore alone. -/
lemma CallLog.note_of_same {a : Action ρ} (h : a.call = c)
    (hk : t.upstream.concurrency.available = s.upstream.concurrency.available)
    (log : CallLog ρ) : log.note c s a t = log.add s a := by
  unfold note
  rw [if_pos h, hk, sub_self, add_zero]
  cases a <;> simp only [add] <;> (try split) <;> rfl

/-- A step of the call that takes `d` permits from the semaphore. -/
lemma CallLog.note_of_taken {a : Action ρ} {d : ℤ} (h : a.call = c)
    (hk : s.upstream.concurrency.available - t.upstream.concurrency.available = d)
    (log : CallLog ρ) :
    log.note c s a t = { log.add s a with permits := log.permits + d } := by
  unfold note
  rw [if_pos h, hk]

lemma lastAnswered_concat (attempts : List (Option (Except Error ρ))) (result : Except Error ρ) :
    lastAnswered (attempts ++ [some result]) = decide (verdict result = .success) := by
  simp [lastAnswered]

lemma lastAnswered_concat_none (attempts : List (Option (Except Error ρ))) :
    lastAnswered (attempts ++ [none]) = false := by
  simp [lastAnswered]

/-- An attempt that never left the gateway is no answer. -/
lemma lastAnswered_replicate_unsent (n : ℕ) :
    lastAnswered (List.replicate n (unsent : Option (Except Error ρ))) = false := by
  cases n with
  | zero => rfl
  | succ n =>
      rw [List.replicate_succ']
      exact lastAnswered_concat _ _

lemma retryable_eq_true {result : Except Error ρ} (h : retryable result = true) :
    some result = unsent := by
  cases result with
  | ok resp => cases h
  | error e => cases e <;> first | rfl | cases h

lemma capped_of_moves {a : Action ρ} (h : Moves calls s a t) :
    t.upstream.concurrency.capped = s.upstream.concurrency.capped := by
  cases h with
  | pass hc hu | throttle hc hu =>
      exact congrArg Concurrency.capped (concurrency_of_checkLimit hu)
  | acquire hc hk => exact (Concurrency.acquire_eq_some hk).2.1
  | dropPermit hc | dropBody hc => exact Concurrency.capped_release _
  | _ => rfl

lemma rateLimited_of_checkLimit {answer : GovernorAnswer} {u : UpstreamState} {e : Error}
    (h : s.upstream.checkLimit answer = (u, .error e)) : e = .rateLimited := by
  unfold UpstreamState.checkLimit at h
  split at h
  · rename_i b hb
    simp only [Prod.mk.injEq, TokenBucket.check] at h
    split at h
    · simp at h
    · simpa using h.2.symm
  · simp at h

/-- The attempt of a call completes: its outcome is decided, or it sleeps before a retry. -/
lemma Explains.complete {guard : BreakerGuard} {permit : Bool} {attempt : UInt32} {k : Call}
    {capped : Bool} (result : Except Error ρ)
    (he : Explains k capped (.attempting guard permit attempt) log) :
    Explains k capped (resume k guard permit attempt result)
      { log with attempts := log.attempts.dropLast ++ [some result] } := by
  obtain ⟨haction, hpermit, hn, rfl⟩ := he
  simp only [CallLog.running, List.dropLast_concat]
  rcases resume_cases k guard permit attempt result with
    ⟨hlt, hretry, delayMs, hsleep⟩ | ⟨hlast, hfinal⟩
  · rw [hsleep]
    have hsucc : (attempt + 1).toNat = attempt.toNat + 1 := toNat_succ_of_lt hlt
    have hlt' : attempt.toNat < k.retries.toNat := UInt32.lt_iff_toNat_lt.1 hlt
    refine ⟨haction, hpermit, ?_, ?_, ?_⟩
    · rw [UInt32.le_iff_toNat_le, hsucc]
      omega
    · rw [UInt32.lt_iff_toNat_lt, hsucc]
      exact Nat.succ_pos _
    · rw [retryable_eq_true hretry, hsucc, List.replicate_succ']
      rfl
  · rw [hfinal]
    refine ⟨hpermit, _, .returned hn hlast, ?_, rfl⟩
    rw [lastAnswered_concat]
    simp [BreakerGuard.succeeded]

/-- Without a permit the call is over; a successful capped stream keeps it, every other call is
about to drop it. -/
lemma afterGuard_cases (k : Call) (permit : Bool) (outcome : Option (Except Error ρ)) :
    (permit = false ∧ afterGuard k permit outcome = .over outcome) ∨
    (permit = true ∧ streams k outcome = false ∧
      afterGuard k permit outcome = .releasing outcome) ∨
    (permit = true ∧ k.method = .passthroughStream ∧ ∃ resp, outcome = some (.ok resp) ∧
      afterGuard k permit outcome = .streaming resp) := by
  unfold afterGuard streams
  cases permit with
  | false => exact .inl ⟨rfl, rfl⟩
  | true =>
      right
      cases hm : k.method with
      | passthrough => exact .inl ⟨rfl, rfl, rfl⟩
      | chat => exact .inl ⟨rfl, rfl, rfl⟩
      | passthroughStream =>
          rcases outcome with _ | e | resp
          · exact .inl ⟨rfl, rfl, rfl⟩
          · exact .inl ⟨rfl, rfl, rfl⟩
          · exact .inr ⟨rfl, rfl, resp, rfl, rfl⟩

/-- The guard of a call is dropped: the breaker is told. -/
lemma Explains.report {guard : BreakerGuard} {permit : Bool}
    {outcome : Option (Except Error ρ)} {k : Call} {capped : Bool}
    (he : Explains k capped (.finishing guard permit outcome) log) :
    Explains k capped (afterGuard k permit outcome)
      { log with reports := log.reports ++ [(guard.admission, guard.succeeded)] } := by
  obtain ⟨rfl, attempts, hconcluded, hsucceeded, rfl⟩ := he
  rcases afterGuard_cases k permit outcome with
    ⟨rfl, hover⟩ | ⟨rfl, hstreams, hreleasing⟩ | ⟨rfl, hmethod, resp, rfl, hstreaming⟩
  · rw [hover]
    refine .inr (.inr ⟨guard.admission, attempts, hconcluded, ?_⟩)
    simp [CallLog.running, CallLog.told, hsucceeded]
  · rw [hreleasing]
    refine ⟨rfl, hstreams, guard.admission, attempts, hconcluded, ?_⟩
    simp [CallLog.running, CallLog.told, hsucceeded]
  · rw [hstreaming]
    refine ⟨rfl, hmethod, guard.admission, attempts, hconcluded, ?_⟩
    simp [CallLog.running, CallLog.told, hsucceeded]

/-- Where a step of a call takes it, and what it adds to its record. -/
lemma Explains.note_self {a : Action ρ} (h : Moves calls s a t)
    (he : Explains (calls a.call) s.upstream.concurrency.capped (s.calls a.call) log) :
    Explains (calls a.call) s.upstream.concurrency.capped (t.calls a.call)
      (log.note a.call s a t) := by
  cases h with
  | @enter c now b admission hc hb =>
      rw [CallLog.note_of_same rfl (by rfl)]
      simp only [Action.call, State.calls_goto_self, hc, Explains] at he ⊢
      rw [he]
      simp [CallLog.add, hb, CallLog.waiting, CallLog.empty]
  | @refuse c now b e hc hb =>
      rw [CallLog.note_of_same rfl (by rfl)]
      simp only [Action.call, State.calls_goto_self, hc, Explains] at he ⊢
      obtain ⟨-, rfl, -⟩ := CircuitBreaker.checkAt_error hb
      refine .inl ⟨?_, rfl⟩
      simp [CallLog.add, hb, he]
  | @pass c answer admission u hc hu =>
      rw [CallLog.note_of_same rfl (congrArg _ (concurrency_of_checkLimit hu))]
      simp only [Action.call, State.calls_goto_self, hc, Explains] at he ⊢
      exact he
  | @throttle c answer admission u e hc hu =>
      rw [CallLog.note_of_same rfl (congrArg _ (concurrency_of_checkLimit hu))]
      simp only [Action.call, State.calls_goto_self, hc, Explains] at he ⊢
      obtain rfl := rateLimited_of_checkLimit hu
      exact ⟨he, .inl rfl⟩
  | @acquire c admission k permit hc hk =>
      obtain ⟨hpermit, -, htaken⟩ := Concurrency.acquire_eq_some hk
      rw [CallLog.note_of_taken (d := permit.toNat) rfl (by exact htaken)]
      simp only [Action.call, State.calls_goto_self, hc, Explains] at he ⊢
      rw [he]
      refine ⟨rfl, hpermit, UInt32.zero_le, ?_⟩
      simp [CallLog.add, CallLog.waiting, CallLog.running, CallLog.empty]
  | @dropProbeGuard c admission outcome hc =>
      rw [CallLog.note_of_same rfl (by rfl)]
      simp only [Action.call, State.calls_goto_self, hc, Explains] at he ⊢
      exact .inr (.inl ⟨admission, he⟩)
  | @begin c guard permit attempt hc =>
      rw [CallLog.note_of_same rfl (by rfl)]
      simp only [Action.call, State.calls_goto_self, hc, Explains] at he ⊢
      obtain ⟨haction, hpermit, hn, rfl⟩ := he
      exact ⟨haction, hpermit, hn, rfl⟩
  | @complete c result guard permit attempt hc =>
      rw [CallLog.note_of_same rfl (by rfl)]
      simp only [Action.call, State.calls_goto_self, hc] at he ⊢
      exact he.complete result
  | @wake c guard permit attempt delayMs hc =>
      rw [CallLog.note_of_same rfl (by rfl)]
      simp only [Action.call, State.calls_goto_self, hc, Explains] at he ⊢
      obtain ⟨haction, hpermit, hn, -, rfl⟩ := he
      exact ⟨haction, hpermit, hn, rfl⟩
  | @leave c admission hc =>
      rw [CallLog.note_of_same rfl (by rfl)]
      simp only [Action.call, State.calls_goto_self, hc, Explains] at he ⊢
      exact ⟨he, .inr rfl⟩
  | @abandon c guard permit attempt hc =>
      rw [CallLog.note_of_same rfl (by rfl)]
      simp only [Action.call, State.calls_goto_self, hc, Explains] at he ⊢
      obtain ⟨haction, hpermit, hn, rfl⟩ := he
      refine ⟨hpermit, _, .abandoned hn, ?_, rfl⟩
      rw [lastAnswered_concat_none]
      simp [BreakerGuard.succeeded, haction]
  | @abandonSleep c guard permit attempt delayMs hc =>
      rw [CallLog.note_of_same rfl (by rfl)]
      simp only [Action.call, State.calls_goto_self, hc, Explains] at he ⊢
      obtain ⟨haction, hpermit, hn, hpos, rfl⟩ := he
      refine ⟨hpermit, _, .abandonedSleep hn hpos, ?_, rfl⟩
      rw [lastAnswered_replicate_unsent]
      simp [BreakerGuard.succeeded, haction]
  | @dropBreakerGuard c now guard permit outcome hc =>
      rw [CallLog.note_of_same rfl (by rfl)]
      simp only [Action.call, State.calls_goto_self, hc] at he ⊢
      simpa only [CallLog.add, hc] using he.report
  | @dropPermit c outcome hc =>
      simp only [Action.call, hc, Explains] at he
      obtain ⟨hcapped, hstreams, admission, attempts, hconcluded, rfl⟩ := he
      rw [CallLog.note_of_taken (d := -1) rfl (by exact Concurrency.available_release hcapped)]
      simp only [Action.call, State.calls_goto_self]
      refine .inr (.inr ⟨admission, attempts, hconcluded, ?_⟩)
      simp [CallLog.add, CallLog.told, hstreams]
  | @dropBody c resp hc =>
      simp only [Action.call, hc, Explains] at he
      obtain ⟨hcapped, hmethod, admission, attempts, hconcluded, rfl⟩ := he
      rw [CallLog.note_of_taken (d := -1) rfl (by exact Concurrency.available_release hcapped)]
      simp only [Action.call, State.calls_goto_self]
      refine .inr (.inr ⟨admission, attempts, hconcluded, ?_⟩)
      simp [CallLog.add, CallLog.told, hcapped, streams, hmethod]

end Step

/-! ### Runs -/

section Runs

variable {calls : ℕ → Call} {c : ℕ} {s t : State ρ} {as : List (Action ρ)}

/-- After every interleaving, the phase of a call explains its record: what has been taken, given
back and reported can be read off from where the call stands. -/
theorem explains_of_run (hidle : s.calls c = .idle) (h : (machine calls).run s as = some t) :
    t.upstream.concurrency.capped = s.upstream.concurrency.capped ∧
      Explains (calls c) s.upstream.concurrency.capped (t.calls c) (callLog calls c s as) := by
  refine Machine.invariant_of_ghost (f := CallLog.note c) (b := CallLog.empty)
    (I := fun log t => t.upstream.concurrency.capped = s.upstream.concurrency.capped ∧
      Explains (calls c) s.upstream.concurrency.capped (t.calls c) log) h ?_ ?_
  · rw [hidle]
    exact ⟨rfl, rfl⟩
  · rintro log pre u a v htakes ⟨hcapped, he⟩
    have hmoves := moves_of_step htakes.step
    refine ⟨(capped_of_moves hmoves).trans hcapped, ?_⟩
    by_cases hca : a.call = c
    · subst hca
      rw [← hcapped] at he ⊢
      exact he.note_self hmoves
    · rw [CallLog.note_of_ne hca, hmoves.calls_of_ne (Ne.symm hca)]
      exact he

end Runs

/-! ## What the breaker hears -/

/-- The breaker hears how a call has ended that was admitted as `admission`: this is the effect of
the one or the other of its two methods for that. -/
def heard (now : Instant) (admission : Admission) (succeeded : Bool) (b : CircuitBreaker) :
    CircuitBreaker :=
  if succeeded then b.onSuccessAt now admission else b.onFailureAt now admission

/-- The breaker hears of no outcome: nothing happens to it, or it is asked for an admission, or the
reservation of one is given back. -/
def Unheard (b b' : CircuitBreaker) : Prop :=
  b' = b ∨ (∃ now, b' = (b.checkAt now).1) ∨ b' = b.releaseProbe

/-- No step of call `c` in the run tells the breaker an outcome. -/
def Silent (calls : ℕ → Call) (c : ℕ) (s : State ρ) (as : List (Action ρ)) : Prop :=
  (machine calls).Always (fun u a v => a.call = c → Unheard u.breaker v.breaker) s as

/-- One step of call `c` in the run tells the breaker an outcome, under `admission` and at the clock
reading of that step, and no other step of the call does. -/
def Tells (calls : ℕ → Call) (c : ℕ) (s : State ρ) (as : List (Action ρ)) (admission : Admission)
    (succeeded : Bool) : Prop :=
  (machine calls).Once
    (fun u a v => ∃ now, a = .dropBreakerGuard c now ∧
      v.breaker = heard now admission succeeded u.breaker)
    (fun u a v => a.call = c → Unheard u.breaker v.breaker) s as

section Heard

variable {calls : ℕ → Call} {c : ℕ} {s t : State ρ} {as : List (Action ρ)} {log : CallLog ρ}

/-- The drop of its `BreakerGuard` is the only step by which a call tells the breaker anything. -/
lemma Moves.unheard {a : Action ρ} (h : Moves calls s a t)
    (ha : ∀ d now, a ≠ .dropBreakerGuard d now) : Unheard s.breaker t.breaker := by
  rcases h.breaker_cases with ⟨hb, -⟩ | ⟨d, now, admission, -, hb⟩ |
    ⟨d, admission, outcome, -, -, hb⟩ | ⟨d, now, guard, permit, outcome, rfl, -⟩
  · exact .inl hb
  · exact .inr (.inl ⟨now, by rw [hb]⟩)
  · unfold ProbeReleaseGuard.drop at hb
    split at hb
    · exact .inr (.inr hb)
    · exact .inl hb
  · exact absurd rfl (ha d now)

/-- What a call logs as reported is what its guard tells the breaker. -/
lemma told_of_dropBreakerGuard {now : Instant} (h : Moves calls s (.dropBreakerGuard c now) t)
    (log : CallLog ρ) :
    ∃ admission succeeded,
      (log.add s (.dropBreakerGuard c now)).reports = log.reports ++ [(admission, succeeded)] ∧
      t.breaker = heard now admission succeeded s.breaker := by
  obtain ⟨guard, permit, outcome, hc, hb⟩ := h.dropped
  refine ⟨guard.admission, guard.succeeded, ?_, hb.trans (guard.drop_eq now s.breaker)⟩
  simp [CallLog.add, hc]

/-- No step but the drop of the guard logs a report. -/
lemma CallLog.reports_add {a : Action ρ} (ha : ∀ d now, a ≠ .dropBreakerGuard d now) :
    (log.add s a).reports = log.reports := by
  cases a with
  | dropBreakerGuard d now => exact absurd rfl (ha d now)
  | check d now =>
      simp only [CallLog.add]
      split <;> rfl
  | _ => rfl

lemma CallLog.reports_note {a : Action ρ} (ha : a.call = c) :
    (log.note c s a t).reports = (log.add s a).reports := by
  rw [CallLog.note, if_pos ha]

/-- What a call has logged as reported is what the breaker has heard of it: nothing as long as the
log is empty, and with one entry this one outcome. -/
structure Recorded (calls : ℕ → Call) (c : ℕ) (s : State ρ) (as : List (Action ρ))
    (log : CallLog ρ) : Prop where
  silent : log.reports = [] → Silent calls c s as
  tells : ∀ admission succeeded, log.reports = [(admission, succeeded)] →
    Tells calls c s as admission succeeded

/-- A step that tells the breaker nothing, or is not the call's, leaves the record right. -/
lemma Recorded.quiet {u : State ρ} {a : Action ρ} {log' : CallLog ρ}
    (h : Recorded calls c s as log) (hrun : (machine calls).run s as = some t)
    (hstep : (machine calls).step t a = some u)
    (hquiet : a.call = c → Unheard t.breaker u.breaker) (hlog : log'.reports = log.reports) :
    Recorded calls c s (as ++ [a]) log' where
  silent := fun hnone => (h.silent (hlog ▸ hnone)).concat hrun hstep hquiet
  tells := fun admission succeeded hone =>
    (h.tells admission succeeded (hlog ▸ hone)).concat hrun hstep hquiet

/-- The report: the log has one entry more, and the breaker hears just this. -/
lemma Recorded.report {u : State ρ} {now : Instant} (h : Recorded calls c s as log)
    (hrun : (machine calls).run s as = some t)
    (hstep : (machine calls).step t (.dropBreakerGuard c now) = some u) :
    Recorded calls c s (as ++ [.dropBreakerGuard c now])
      (log.note c t (.dropBreakerGuard c now) u) := by
  obtain ⟨admission, succeeded, hreports, htold⟩ :=
    told_of_dropBreakerGuard (moves_of_step hstep) log
  rw [← CallLog.reports_note (t := u) rfl] at hreports
  refine ⟨fun hnone => ?_, fun admission' succeeded' hone => ?_⟩
  · exact absurd (hreports.symm.trans hnone) (by simp)
  · rcases List.append_eq_singleton_iff.1 (hreports.symm.trans hone) with
      ⟨hnone, hlast⟩ | ⟨-, hnil⟩
    · obtain ⟨rfl, rfl⟩ : admission = admission' ∧ succeeded = succeeded' := by simpa using hlast
      exact (h.silent hnone).once hrun hstep ⟨now, rfl, htold⟩
    · cases hnil

/-- After every run the breaker has heard of a call what its record says: nothing as long as no
report is recorded, and afterwards the recorded one, at one step of the run. -/
theorem recorded_of_run (h : (machine calls).run s as = some t) :
    Recorded calls c s as (callLog calls c s as) := by
  refine Machine.invariant_of_takes (I := fun as _ => Recorded calls c s as (callLog calls c s as))
    h ?_ ?_
  · exact ⟨fun _ => Machine.always_nil s,
      fun _ _ hone => absurd hone (by simp [callLog, CallLog.empty])⟩
  · intro pre u a v htakes hprev
    have hnext : callLog calls c s (pre ++ [a]) = (callLog calls c s pre).note c u a v :=
      Machine.ghost_concat _ _ htakes.run htakes.step
    have hmoves := moves_of_step htakes.step
    rw [hnext]
    by_cases hca : a.call = c
    · by_cases hguard : ∃ d now, a = .dropBreakerGuard d now
      · obtain ⟨d, now, rfl⟩ := hguard
        obtain rfl : d = c := hca
        exact hprev.report htakes.run htakes.step
      · have hne : ∀ d now, a ≠ .dropBreakerGuard d now :=
          fun d now heq => hguard ⟨d, now, heq⟩
        refine hprev.quiet htakes.run htakes.step (fun _ => hmoves.unheard hne) ?_
        rw [CallLog.reports_note hca, CallLog.reports_add hne]
    · refine hprev.quiet htakes.run htakes.step (fun heq => absurd heq hca) ?_
      rw [CallLog.note_of_ne hca]

end Heard

/-! ## Reports -/

/-- The call has returned or was dropped. -/
def Phase.Ended : Phase ρ → Prop
  | .over _ | .streaming _ => True
  | _ => False

lemma Phase.Ended.cases {p : Phase ρ} (h : p.Ended) :
    (∃ outcome, p = .over outcome) ∨ ∃ resp, p = .streaming resp := by
  cases p <;> simp_all [Phase.Ended]

/-- What call `c`, which has ended in the state `t` that the run `as` from `s` leads to, has told
the breaker along this run, and what it still has out.  `log` is its record. -/
structure ReportedOnce (calls : ℕ → Call) (c : ℕ) (s : State ρ) (as : List (Action ρ))
    (t : State ρ) (log : CallLog ρ) : Prop where
  /-- It ended in admission with one of three outcomes, ... -/
  turnedAway : log.admitted = false →
    t.calls c = .over (some (.error .circuitOpen)) ∨
    t.calls c = .over (some (.error .rateLimited)) ∨ t.calls c = .over none
  /-- ... and then no step of it told the breaker an outcome, ... -/
  silent : log.admitted = false →
    log.attempts = [] ∧ log.reports = [] ∧ Silent calls c s as
  /-- ... and a probe slot that is reserved is another call's; ... -/
  released : log.admitted = false →
    t.breaker.probeInFlight = true → ∃ d, d ≠ c ∧ HoldsProbe t d
  /-- ... or it was admitted and exactly one of its steps has told the breaker an outcome, under
  the admission it was granted: whether its last attempt was answered. -/
  reported : log.admitted = true → ∃ admission, log.granted = [admission] ∧
    log.reports = [(admission, lastAnswered log.attempts)] ∧
    Tells calls c s as admission (lastAnswered log.attempts)
  /-- Once it is over it has no permit out. -/
  settled : ∀ outcome, t.calls c = .over outcome → log.permits = 0
  /-- The body of a successful capped stream has one. -/
  streaming : ∀ resp, t.calls c = .streaming resp →
    s.upstream.concurrency.capped = true ∧ (calls c).method = .passthroughStream ∧
      log.attempts.getLast? = some (some (.ok resp)) ∧ log.bodyDropped = false ∧
      log.permits = 1
  /-- Such a body stays until it is dropped. -/
  body : ∀ resp, s.upstream.concurrency.capped = true →
    (calls c).method = .passthroughStream →
    log.attempts.getLast? = some (some (.ok resp)) →
    t.calls c = .streaming resp ∨ log.bodyDropped = true

section Reports

variable {calls : ℕ → Call} {c : ℕ} {s t : State ρ} {as : List (Action ρ)}

/-- A call whose last attempt succeeded returns what it succeeded with. -/
lemma Concluded.eq_of_getLast {k : Call} {attempts : List (Option (Except Error ρ))}
    {outcome : Option (Except Error ρ)} {resp : ρ} (h : Concluded k attempts outcome)
    (hlast : attempts.getLast? = some (some (.ok resp))) : outcome = some (.ok resp) := by
  cases h with
  | @returned n result hn _ => simpa using hlast
  | @abandoned n hn => simp at hlast
  | @abandonedSleep n hn hpos =>
      have hne : n.toNat ≠ 0 := by
        have hlt : 0 < n.toNat := UInt32.lt_iff_toNat_lt.1 hpos
        omega
      simp [List.getLast?_replicate, hne, unsent] at hlast

lemma Concluded.getLast {k : Call} {attempts : List (Option (Except Error ρ))}
    {result : Except Error ρ} (h : Concluded k attempts (some result)) :
    attempts.getLast? = some (some result) := by
  cases h with
  | returned hn hlast => simp

/-- A probe slot that is reserved when `c` has ended is another call's. -/
lemma probe_of_other {cfg : BreakerConfig} (hreach : (machine calls).Reachable (Fresh cfg) t)
    (hended : (t.calls c).Ended) (hflag : t.breaker.probeInFlight = true) :
    ∃ d, d ≠ c ∧ HoldsProbe t d := by
  obtain ⟨d, hd⟩ := (Admissions.Coherent.of_reachable (admissions_reachable hreach)).inFlight.1 hflag
  refine ⟨d, ?_, hd⟩
  rintro rfl
  rw [holds_admissions] at hd
  rcases hended.cases with ⟨outcome, hover⟩ | ⟨resp, hstreaming⟩
  · simp [hover] at hd
  · simp [hstreaming] at hd

lemma Explains.ended {k : Call} {capped : Bool} {p : Phase ρ} {log : CallLog ρ}
    (he : Explains k capped p log) (hended : p.Ended) :
    (∃ outcome granted, p = .over outcome ∧
      (outcome = some (.error .circuitOpen) ∨ TurnedAway outcome) ∧
      log = { CallLog.empty with granted := granted }) ∨
    (∃ admission attempts outcome, p = .over outcome ∧ Concluded k attempts outcome ∧
      log = .told admission attempts 0 (capped && streams k outcome)) ∨
    (∃ admission attempts resp, p = .streaming resp ∧ capped = true ∧
      k.method = .passthroughStream ∧ Concluded k attempts (some (.ok resp)) ∧
      log = .told admission attempts 1 false) := by
  rcases hended.cases with ⟨outcome, rfl⟩ | ⟨resp, rfl⟩
  · rcases he with ⟨rfl, rfl⟩ | ⟨admission, rfl, hturned⟩ | ⟨admission, attempts, hconcluded, rfl⟩
    · exact .inl ⟨_, [], rfl, .inl rfl, rfl⟩
    · exact .inl ⟨outcome, [admission], rfl, .inr hturned, rfl⟩
    · exact .inr (.inl ⟨admission, attempts, outcome, rfl, hconcluded, rfl⟩)
  · obtain ⟨hcapped, hmethod, admission, attempts, hconcluded, rfl⟩ := he
    exact .inr (.inr ⟨admission, attempts, resp, rfl, hcapped, hmethod, hconcluded, rfl⟩)

/-- A call that has told the breaker, given what it still has out. -/
lemma ReportedOnce.of_told {admission : Admission}
    {attempts : List (Option (Except Error ρ))} {permits : ℤ} {bodyDropped : Bool}
    (recorded : Recorded calls c s as (.told admission attempts permits bodyDropped))
    (settled : ∀ outcome, t.calls c = .over outcome → permits = 0)
    (streaming : ∀ resp, t.calls c = .streaming resp →
      s.upstream.concurrency.capped = true ∧ (calls c).method = .passthroughStream ∧
        attempts.getLast? = some (some (.ok resp)) ∧ bodyDropped = false ∧ permits = 1)
    (body : ∀ resp, s.upstream.concurrency.capped = true →
      (calls c).method = .passthroughStream →
      attempts.getLast? = some (some (.ok resp)) →
      t.calls c = .streaming resp ∨ bodyDropped = true) :
    ReportedOnce calls c s as t (.told admission attempts permits bodyDropped) where
  turnedAway := fun hadmitted => by cases hadmitted
  silent := fun hadmitted => by cases hadmitted
  released := fun hadmitted => by cases hadmitted
  reported := fun _ => ⟨admission, rfl, rfl, recorded.tells admission _ rfl⟩
  settled := settled
  streaming := streaming
  body := body

/-- In every interleaving of any calls over a fresh slot, the breaker has heard exactly once of a
call that has ended if it was admitted, and not at all if it was not. -/
theorem reported_once {cfg : BreakerConfig} (hs : Fresh cfg s)
    (h : (machine calls).run s as = some t) (hended : (t.calls c).Ended) :
    ReportedOnce calls c s as t (callLog calls c s as) := by
  have hidle : s.calls c = .idle := by
    obtain ⟨upstream, -, rfl⟩ := hs
    rfl
  obtain ⟨-, he⟩ := explains_of_run hidle h
  have hrecorded := recorded_of_run (c := c) h
  generalize callLog calls c s as = log at he hrecorded ⊢
  have hother := probe_of_other (c := c) ⟨s, as, hs, h⟩ hended
  rcases he.ended hended with ⟨outcome, granted, hover, hturned, rfl⟩ |
    ⟨admission, attempts, outcome, hover, hconcluded, rfl⟩ |
    ⟨admission, attempts, resp, hstreaming, hcapped, hmethod, hconcluded, rfl⟩
  · constructor
    · intro _
      rw [hover]
      rcases hturned with rfl | rfl | rfl
      · exact .inl rfl
      · exact .inr (.inl rfl)
      · exact .inr (.inr rfl)
    · exact fun _ => ⟨rfl, rfl, hrecorded.silent rfl⟩
    · exact fun _ => hother
    · intro hadmitted
      cases hadmitted
    · exact fun _ _ => rfl
    · intro resp hstreaming
      rw [hover] at hstreaming
      cases hstreaming
    · intro resp _ _ hlast
      cases hlast
  · refine .of_told hrecorded (fun _ _ => rfl) (fun resp hstreaming => ?_)
      fun resp hcapped hmethod hlast => .inr ?_
    · rw [hover] at hstreaming
      cases hstreaming
    · obtain rfl := hconcluded.eq_of_getLast hlast
      simp [hcapped, streams, hmethod]
  · refine .of_told hrecorded (fun outcome hover => ?_) (fun resp' hstreaming' => ?_)
      fun resp' _ _ hlast => .inl ?_
    · rw [hstreaming] at hover
      cases hover
    · obtain rfl : resp = resp' := by simpa [hstreaming] using hstreaming'
      exact ⟨hcapped, hmethod, hconcluded.getLast, rfl, rfl⟩
    · have hsame : some (.ok resp) = some (.ok resp' : Except Error ρ) :=
        hconcluded.eq_of_getLast hlast
      obtain rfl : resp = resp' := by simpa using hsame
      exact hstreaming

/-- A non-streaming call that is retried twice. -/
def patientCall : Call where
  method := .passthrough
  retry := { enabled := true, maxRetries := 2, backoffMs := 10 }

/-- A call that is cancelled while it sleeps before its first retry. -/
def abandonedRetry : List (Action Unit) :=
  [.check 0 1, .bucket 0 ⟨true, 0⟩, .acquire 0, .begin 0,
    .complete 0 (.error .upstreamUnavailable), .cancel 0, .dropBreakerGuard 0 2, .dropPermit 0]

/-- One step of the cancelled call has told the breaker of a failure, and its permit is back. -/
theorem reported_once_abandonedRetry :
    ∃ t : State Unit,
      (machine fun _ => patientCall).run (State.init tightSlot) abandonedRetry = some t ∧
      (callLog (fun _ => patientCall) 0 (State.init tightSlot) abandonedRetry).permits = 0 ∧
      ∃ admission,
        Tells (fun _ => patientCall) 0 (State.init tightSlot) abandonedRetry admission false := by
  obtain ⟨t, ht⟩ : ∃ t, (machine fun _ => patientCall).run (State.init tightSlot)
      abandonedRetry = some t := ⟨_, rfl⟩
  have hfresh : Fresh hairTrigger (State.init tightSlot : State Unit) := ⟨tightSlot, rfl, rfl⟩
  have hover : t.calls 0 = .over none := by
    cases ht
    rfl
  have hended : (t.calls 0).Ended := by
    rw [hover]
    trivial
  have honce := reported_once hfresh ht hended
  obtain ⟨admission, -, -, htells⟩ := honce.reported rfl
  exact ⟨t, ht, honce.settled none hover, admission, htells⟩

end Reports

end Governed

end Moaray
