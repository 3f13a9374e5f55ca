import Moaray.Framework.Machine
import Moaray.Gateway.Limit

/-!
# `GovernedProvider`: concurrent calls over one upstream slot

Any number of calls share one `UpstreamState`.  A call is an `async` method, so its execution is
cut at every place where another call can run in between: at each lock or atomic it touches, and at
each `await`.  `Phase` is where a call stands between two such steps and holds its locals; `Action`
names the call that moves next together with what its environment answers (the clock reading, the
limiter's verdict, the result of the inner attempt, or that the surrounding future is dropped).
`machine` replays one interleaving.

* `ProbeReleaseGuard`, `BreakerGuard` — the two guards, with what each does when it is dropped.
* `passthrough`, `passthroughStream`, `chat` — the three methods, from the result of an attempt on;
  `resume_cases`: what they have in common.
* `step`, `machine` — one step of one call; `Moves`, `moves_of_step` — the ways it can go.
* `Moves.breaker_cases` — the only three ways a step touches the breaker.

The two guards are the source's: `ProbeReleaseGuard` covers the window between the breaker check
and full admission, `BreakerGuard` everything after, and each acts when it is dropped. Locals are
dropped in reverse order of declaration, so the breaker hears of an outcome before the permit
returns to the semaphore.

**Design.**  `step` is executable and follows the source statement by statement; `Moves` is the
same step as a relation with one constructor for each way a call can move, its guards among the
premises.  Every invariant of the system is proved by cases on `Moves`, and `step` is unfolded
once, in `moves_of_step`.

A call may be dropped at any `await`, which is a step like any other.  What it holds then is in its
phase: the guard that is dropped with it, and the permit behind that.  The results of attempts are
of any type, so what is proved of calls holds for raw responses and for structured ones.
-/

namespace Moaray

open Framework

/-! ## The guards -/

/-- Releases a reserved half-open probe slot on drop unless disarmed.  A call that was admitted as
normal has one that does nothing. -/
structure ProbeReleaseGuard where
  armed : Bool
  deriving DecidableEq, Repr

namespace ProbeReleaseGuard

def new (admission : Admission) : ProbeReleaseGuard where
  armed := decide (admission = .probe)

def disarm (_g : ProbeReleaseGuard) : ProbeReleaseGuard where
  armed := false

def drop (g : ProbeReleaseGuard) (b : CircuitBreaker) : CircuitBreaker :=
  if g.armed then b.releaseProbe else b

@[simp] lemma drop_new_normal (b : CircuitBreaker) : (new .normal).drop b = b := rfl

@[simp] lemma state_drop (g : ProbeReleaseGuard) (b : CircuitBreaker) :
    (g.drop b).state = b.state := by
  unfold drop
  split
  · exact b.state_releaseProbe
  · rfl

@[simp] lemma cfg_drop (g : ProbeReleaseGuard) (b : CircuitBreaker) : (g.drop b).cfg = b.cfg := by
  unfold drop
  split
  · exact b.cfg_releaseProbe
  · rfl

@[simp] lemma successes_drop (g : ProbeReleaseGuard) (b : CircuitBreaker) :
    (g.drop b).consecutiveSuccesses = b.consecutiveSuccesses := by
  unfold drop CircuitBreaker.releaseProbe
  split
  · split <;> rfl
  · rfl

@[simp] lemma drop_new_probe (b : CircuitBreaker) : (new .probe).drop b = b.releaseProbe := rfl

end ProbeReleaseGuard

/-- What a finished call reports to the breaker; a guard without one reports a failure, so that a
cancelled call counts. -/
inductive BreakerAction
  | success
  | failure
  deriving DecidableEq, Repr

/-- Records one breaker outcome for an admitted call when it is dropped.  Without an outcome of its
own it reports a failure. -/
structure BreakerGuard where
  admission : Admission
  action : Option BreakerAction
  deriving DecidableEq, Repr

namespace BreakerGuard

def new (admission : Admission) : BreakerGuard where
  admission := admission
  action := none

/-- Mark the call as a breaker success, to be reported when the guard is dropped. -/
def success (g : BreakerGuard) : BreakerGuard := { g with action := some .success }

/-- Resolve an error into a breaker outcome; neutral errors report success.  What is not resolved is
a failure, which is what a cancelled call leaves. -/
def record (g : BreakerGuard) (err : Error) : BreakerGuard :=
  { g with action := some (if err.countsAgainstBreaker then .failure else .success) }

/-- The call will report a success. -/
def succeeded (g : BreakerGuard) : Bool := decide (g.action = some .success)

/-- An explicit failure and an un-finalized call both count against the breaker. -/
def drop (g : BreakerGuard) (now : Instant) (b : CircuitBreaker) : CircuitBreaker :=
  match g.action with
  | some .success => b.onSuccessAt now g.admission
  | some .failure | none => b.onFailureAt now g.admission

lemma drop_eq (g : BreakerGuard) (now : Instant) (b : CircuitBreaker) :
    g.drop now b =
      if g.succeeded then b.onSuccessAt now g.admission else b.onFailureAt now g.admission := by
  unfold drop succeeded
  rcases g.action with _ | _ | _ <;> rfl

@[simp] lemma cfg_drop (g : BreakerGuard) (now : Instant) (b : CircuitBreaker) :
    (g.drop now b).cfg = b.cfg := by
  rw [drop_eq]
  split
  · exact b.cfg_onSuccessAt now g.admission
  · exact b.cfg_onFailureAt now g.admission

@[simp] lemma admission_new (a : Admission) : (new a).admission = a := rfl

end BreakerGuard

/-! ## Calls -/

namespace Governed

/-- Which `Provider` method a call runs: the two that are retried, or the stream, which is not. -/
inductive Method
  | passthrough
  | passthroughStream
  | chat
  deriving DecidableEq, Repr

/-- What a call brings along: its method and the retry policy of its provider.  Neither changes
while it runs. -/
structure Call where
  method : Method
  retry : RetryConfig
  deriving DecidableEq, Repr

/-- Additional attempts permitted for a retry-safe, non-stream call: none unless retries are
enabled. -/
def Call.maxRetries (c : Call) : UInt32 :=
  if c.retry.enabled then c.retry.maxRetries else 0

/-- Multiplication of 64-bit integers that stops at the greatest one. -/
def saturatingMul (a b : UInt64) : UInt64 :=
  if a.toNat * b.toNat < UInt64.size then a * b else UInt64.ofNat (UInt64.size - 1)

/-- The delay before retry number `attempt`; the shift takes its amount modulo 64, as the
release build does. -/
def Call.backoff (c : Call) (attempt : UInt32) : UInt64 :=
  saturatingMul c.retry.backoffMs (1 <<< (attempt - 1).toUInt64)

variable {ρ : Type}

/-- Where a call stands between two of its steps, with the locals it holds there.  An outcome
is `none` when the call was cancelled. -/
inductive Phase (ρ : Type)
  /-- Not polled yet. -/
  | idle
  /-- The breaker admitted it; the token bucket is next.  Holds a `ProbeReleaseGuard`. -/
  | checked (admission : Admission)
  /-- Waits for a permit.  Holds a `ProbeReleaseGuard`. -/
  | queued (admission : Admission)
  /-- Leaves `admit` without admission; the `ProbeReleaseGuard` is about to be dropped. -/
  | rejected (admission : Admission) (outcome : Option (Except Error ρ))
  /-- At the head of the attempt loop. -/
  | admitted (guard : BreakerGuard) (permit : Bool) (attempt : UInt32)
  /-- An inner attempt is in flight. -/
  | attempting (guard : BreakerGuard) (permit : Bool) (attempt : UInt32)
  /-- Sleeps before the next attempt. -/
  | sleeping (guard : BreakerGuard) (permit : Bool) (attempt : UInt32) (delayMs : UInt64)
  /-- The outcome is decided; the `BreakerGuard` is about to be dropped. -/
  | finishing (guard : BreakerGuard) (permit : Bool) (outcome : Option (Except Error ρ))
  /-- The `BreakerGuard` is gone; the permit is about to be dropped. -/
  | releasing (outcome : Option (Except Error ρ))
  /-- The call has returned a stream whose body holds the permit. -/
  | streaming (response : ρ)
  /-- The call is over and holds nothing. -/
  | over (outcome : Option (Except Error ρ))

/-- The admission whose guard the call has not dropped yet. -/
def Phase.admission : Phase ρ → Option Admission
  | .idle | .releasing _ | .streaming _ | .over _ => none
  | .checked admission | .queued admission | .rejected admission _ => some admission
  | .admitted guard _ _ | .attempting guard _ _ | .sleeping guard _ _ _ | .finishing guard _ _ =>
      some guard.admission

namespace Phase

variable (admission : Admission) (guard : BreakerGuard) (permit : Bool) (attempt : UInt32)
  (delayMs : UInt64) (outcome : Option (Except Error ρ)) (response : ρ)

@[simp] lemma admission_idle : (idle : Phase ρ).admission = none := rfl

@[simp] lemma admission_checked : (checked admission : Phase ρ).admission = some admission := rfl

@[simp] lemma admission_queued : (queued admission : Phase ρ).admission = some admission := rfl

@[simp] lemma admission_rejected : (rejected admission outcome).admission = some admission := rfl

@[simp] lemma admission_admitted :
    (admitted guard permit attempt : Phase ρ).admission = some guard.admission := rfl

@[simp] lemma admission_attempting :
    (attempting guard permit attempt : Phase ρ).admission = some guard.admission := rfl

@[simp] lemma admission_sleeping :
    (sleeping guard permit attempt delayMs : Phase ρ).admission = some guard.admission := rfl

@[simp] lemma admission_finishing :
    (finishing guard permit outcome).admission = some guard.admission := rfl

@[simp] lemma admission_releasing : (releasing outcome).admission = none := rfl

@[simp] lemma admission_streaming : (streaming response).admission = none := rfl

@[simp] lemma admission_over : (Phase.over outcome).admission = none := rfl

end Phase

/-- What the attempt loop of `passthrough` and `chat` does with the result of an attempt. -/
def retryLoop (c : Call) (guard : BreakerGuard) (permit : Bool) (attempt : UInt32) :
    Except Error ρ → Phase ρ
  | .ok resp => .finishing guard.success permit (some (.ok resp))
  | .error e =>
      if attempt < c.maxRetries && e.isRetryable then
        .sleeping guard permit (attempt + 1) (c.backoff (attempt + 1))
      else .finishing (guard.record e) permit (some (.error e))

/-- `passthrough`, from the result of an attempt on. -/
def passthrough (c : Call) (guard : BreakerGuard) (permit : Bool) (attempt : UInt32)
    (result : Except Error ρ) : Phase ρ :=
  retryLoop c guard permit attempt result

/-- `passthrough_stream`, from the handshake's result on: it is never retried.  The breaker is told
of the handshake, whatever becomes of the body. -/
def passthroughStream (guard : BreakerGuard) (permit : Bool) : Except Error ρ → Phase ρ
  | .ok resp => .finishing guard.success permit (some (.ok resp))
  | .error e => .finishing (guard.record e) permit (some (.error e))

/-- `chat`, from the result of an attempt on. -/
def chat (c : Call) (guard : BreakerGuard) (permit : Bool) (attempt : UInt32)
    (result : Except Error ρ) : Phase ρ :=
  retryLoop c guard permit attempt result

/-- Resume a call with the result of its inner attempt.  The two methods that retry do so by the
same loop. -/
def resume (c : Call) (guard : BreakerGuard) (permit : Bool) (attempt : UInt32)
    (result : Except Error ρ) : Phase ρ :=
  match c.method with
  | .passthrough => passthrough c guard permit attempt result
  | .passthroughStream => passthroughStream guard permit result
  | .chat => chat c guard permit attempt result

/-- `attach_permit`: a successful capped stream moves the permit into the response body; every
other call drops it when it returns. -/
def afterGuard (c : Call) (permit : Bool) (outcome : Option (Except Error ρ)) : Phase ρ :=
  if permit then
    match c.method, outcome with
    | .passthroughStream, some (.ok resp) => .streaming resp
    | _, _ => .releasing outcome
  else .over outcome

/-- The guard of a call keeps its admission however an attempt ends. -/
@[simp] lemma admission_resume (c : Call) (guard : BreakerGuard) (permit : Bool)
    (attempt : UInt32) (result : Except Error ρ) :
    (resume c guard permit attempt result).admission = some guard.admission := by
  unfold resume passthrough chat passthroughStream retryLoop
  cases c.method <;> cases result <;> simp only [] <;> (try split) <;> rfl

@[simp] lemma admission_afterGuard (c : Call) (permit : Bool) (outcome : Option (Except Error ρ)) :
    (afterGuard c permit outcome).admission = none := by
  unfold afterGuard
  split
  · split <;> rfl
  · rfl

/-! ### What an attempt leads to -/

/-- What a call that ends with `result` reports: only upstream-health errors are failures. -/
def verdict : Except Error ρ → BreakerAction
  | .ok _ => .success
  | .error e => if e.countsAgainstBreaker then .failure else .success

/-- How many attempts a call may add to its first one: a stream is never retried. -/
def Call.retries (c : Call) : UInt32 :=
  match c.method with
  | .passthroughStream => 0
  | .passthrough | .chat => c.maxRetries

/-- Whether a result is one that may be retried. -/
def retryable : Except Error ρ → Bool
  | .ok _ => false
  | .error e => e.isRetryable

lemma retryLoop_cases (c : Call) (guard : BreakerGuard) (permit : Bool) (attempt : UInt32)
    (result : Except Error ρ) :
    (attempt < c.maxRetries ∧ retryable result = true ∧
      ∃ delayMs, retryLoop c guard permit attempt result =
        .sleeping guard permit (attempt + 1) delayMs) ∨
    ((attempt < c.maxRetries → retryable result = false) ∧
      retryLoop c guard permit attempt result =
        .finishing { guard with action := some (verdict result) } permit (some result)) := by
  cases result with
  | ok resp => exact .inr ⟨fun _ => rfl, rfl⟩
  | error e =>
      by_cases hretry : (attempt < c.maxRetries && e.isRetryable) = true
      · obtain ⟨hlt, he⟩ : attempt < c.maxRetries ∧ e.isRetryable = true := by
          simpa using hretry
        exact .inl ⟨hlt, he, c.backoff (attempt + 1), by rw [retryLoop, if_pos hretry]⟩
      · refine .inr ⟨fun hlt => ?_, by rw [retryLoop, if_neg hretry]; rfl⟩
        simpa [retryable, hlt] using hretry

/-- An attempt's result is either retried later, when the call is allowed to and the request
never left, or it is final, and then the guard takes its verdict. -/
lemma resume_cases (c : Call) (guard : BreakerGuard) (permit : Bool) (attempt : UInt32)
    (result : Except Error ρ) :
    (attempt < c.retries ∧ retryable result = true ∧
      ∃ delayMs, resume c guard permit attempt result =
        .sleeping guard permit (attempt + 1) delayMs) ∨
    ((attempt < c.retries → retryable result = false) ∧
      resume c guard permit attempt result =
        .finishing { guard with action := some (verdict result) } permit (some result)) := by
  cases hm : c.method with
  | passthrough =>
      rw [Call.retries, hm, resume, hm]
      exact retryLoop_cases c guard permit attempt result
  | chat =>
      rw [Call.retries, hm, resume, hm]
      exact retryLoop_cases c guard permit attempt result
  | passthroughStream =>
      right
      rw [Call.retries, hm, resume, hm]
      refine ⟨fun hlt => absurd hlt UInt32.not_lt_zero, ?_⟩
      cases result <;> rfl

/-! ## The interleaved system -/

/-- A slot and every call over it, by number.  A number that has not come yet is idle. -/
structure State (ρ : Type) where
  upstream : UpstreamState
  calls : ℕ → Phase ρ

namespace State

/-- The slot as it is built, with no call polled yet. -/
def init (upstream : UpstreamState) : State ρ where
  upstream := upstream
  calls _ := .idle

def goto (s : State ρ) (c : ℕ) (p : Phase ρ) : State ρ :=
  { s with calls := Function.update s.calls c p }

def withBreaker (s : State ρ) (b : CircuitBreaker) : State ρ :=
  { s with upstream := { s.upstream with breaker := b } }

def withConcurrency (s : State ρ) (k : Concurrency) : State ρ :=
  { s with upstream := { s.upstream with concurrency := k } }

def breaker (s : State ρ) : CircuitBreaker := s.upstream.breaker

section Lemmas

variable (s : State ρ) (c d : ℕ) (p : Phase ρ) (b : CircuitBreaker) (k : Concurrency)

@[simp] lemma calls_goto_self : (s.goto c p).calls c = p := Function.update_self ..

lemma calls_goto_ne (h : d ≠ c) : (s.goto c p).calls d = s.calls d := Function.update_of_ne h ..

@[simp] lemma calls_withBreaker : (s.withBreaker b).calls = s.calls := rfl

@[simp] lemma calls_withConcurrency : (s.withConcurrency k).calls = s.calls := rfl

end Lemmas

end State

/-- One atomic step of one call, with its environment's answer.  Each is enabled in the phases the
source takes it in. -/
inductive Action (ρ : Type)
  /-- `breaker.check()`, at a clock reading. -/
  | check (c : ℕ) (now : Instant)
  /-- `check_limit()`, with the limiter's answer. -/
  | bucket (c : ℕ) (answer : GovernorAnswer)
  /-- The permit wait completes and the call is admitted. -/
  | acquire (c : ℕ)
  /-- The `ProbeReleaseGuard` is dropped on the way out of `admit`. -/
  | dropProbeGuard (c : ℕ)
  /-- An inner attempt begins. -/
  | begin (c : ℕ)
  /-- The inner attempt completes. -/
  | complete (c : ℕ) (result : Except Error ρ)
  /-- The backoff sleep ends. -/
  | wake (c : ℕ)
  /-- The future is dropped at the `await` it is parked on. -/
  | cancel (c : ℕ)
  /-- The `BreakerGuard` is dropped, at a clock reading. -/
  | dropBreakerGuard (c : ℕ) (now : Instant)
  /-- The permit is dropped. -/
  | dropPermit (c : ℕ)
  /-- The body of a returned stream is dropped. -/
  | dropBody (c : ℕ)

/-- The call an action belongs to. -/
def Action.call : Action ρ → ℕ
  | .check c _ | .bucket c _ | .acquire c | .dropProbeGuard c | .begin c | .complete c _
  | .wake c | .cancel c | .dropBreakerGuard c _ | .dropPermit c | .dropBody c => c

variable (calls : ℕ → Call)

def step (s : State ρ) : Action ρ → Option (State ρ)
  | .check c now =>
      match s.calls c with
      | .idle =>
          match s.breaker.checkAt now with
          | (b, .ok admission) => some ((s.withBreaker b).goto c (.checked admission))
          | (b, .error e) => some ((s.withBreaker b).goto c (.over (some (.error e))))
      | _ => none
  | .bucket c answer =>
      match s.calls c with
      | .checked admission =>
          match s.upstream.checkLimit answer with
          | (u, .ok ()) => some ({ s with upstream := u }.goto c (.queued admission))
          | (u, .error e) =>
              some ({ s with upstream := u }.goto c (.rejected admission (some (.error e))))
      | _ => none
  | .acquire c =>
      match s.calls c with
      | .queued admission =>
          match s.upstream.concurrency.acquire with
          | some (k, permit) =>
              let b := (ProbeReleaseGuard.new admission).disarm.drop s.breaker
              some (((s.withConcurrency k).withBreaker b).goto c
                (.admitted (BreakerGuard.new admission) permit 0))
          | none => none
      | _ => none
  | .dropProbeGuard c =>
      match s.calls c with
      | .rejected admission outcome =>
          some ((s.withBreaker ((ProbeReleaseGuard.new admission).drop s.breaker)).goto c
            (.over outcome))
      | _ => none
  | .begin c =>
      match s.calls c with
      | .admitted guard permit attempt => some (s.goto c (.attempting guard permit attempt))
      | _ => none
  | .complete c result =>
      match s.calls c with
      | .attempting guard permit attempt =>
          some (s.goto c (resume (calls c) guard permit attempt result))
      | _ => none
  | .wake c =>
      match s.calls c with
      | .sleeping guard permit attempt _ => some (s.goto c (.admitted guard permit attempt))
      | _ => none
  | .cancel c =>
      match s.calls c with
      | .queued admission => some (s.goto c (.rejected admission none))
      | .attempting guard permit _ | .sleeping guard permit _ _ =>
          some (s.goto c (.finishing guard permit none))
      | _ => none
  | .dropBreakerGuard c now =>
      match s.calls c with
      | .finishing guard permit outcome =>
          some ((s.withBreaker (guard.drop now s.breaker)).goto c
            (afterGuard (calls c) permit outcome))
      | _ => none
  | .dropPermit c =>
      match s.calls c with
      | .releasing outcome =>
          some ((s.withConcurrency s.upstream.concurrency.release).goto c (.over outcome))
      | _ => none
  | .dropBody c =>
      match s.calls c with
      | .streaming resp =>
          some ((s.withConcurrency s.upstream.concurrency.release).goto c (.over (some (.ok resp))))
      | _ => none

/-- The interleavings of the calls over one slot. -/
def machine : Machine (State ρ) (Action ρ) where
  step := step calls

/-- What one step can do, as a relation: one constructor for each way a call can move.  The
constructors carry the branch conditions of the source. -/
inductive Moves (s : State ρ) : Action ρ → State ρ → Prop
  | enter {c now b admission} (hc : s.calls c = .idle)
      (hb : s.breaker.checkAt now = (b, .ok admission)) :
      Moves s (.check c now) ((s.withBreaker b).goto c (.checked admission))
  | refuse {c now b e} (hc : s.calls c = .idle) (hb : s.breaker.checkAt now = (b, .error e)) :
      Moves s (.check c now) ((s.withBreaker b).goto c (.over (some (.error e))))
  | pass {c answer admission u} (hc : s.calls c = .checked admission)
      (hu : s.upstream.checkLimit answer = (u, .ok ())) :
      Moves s (.bucket c answer) ({ s with upstream := u }.goto c (.queued admission))
  | throttle {c answer admission u e} (hc : s.calls c = .checked admission)
      (hu : s.upstream.checkLimit answer = (u, .error e)) :
      Moves s (.bucket c answer)
        ({ s with upstream := u }.goto c (.rejected admission (some (.error e))))
  | acquire {c admission k permit} (hc : s.calls c = .queued admission)
      (hk : s.upstream.concurrency.acquire = some (k, permit)) :
      Moves s (.acquire c)
        ((s.withConcurrency k).goto c (.admitted (BreakerGuard.new admission) permit 0))
  | dropProbeGuard {c admission outcome} (hc : s.calls c = .rejected admission outcome) :
      Moves s (.dropProbeGuard c)
        ((s.withBreaker ((ProbeReleaseGuard.new admission).drop s.breaker)).goto c (.over outcome))
  | begin {c guard permit attempt} (hc : s.calls c = .admitted guard permit attempt) :
      Moves s (.begin c) (s.goto c (.attempting guard permit attempt))
  | complete {c result guard permit attempt} (hc : s.calls c = .attempting guard permit attempt) :
      Moves s (.complete c result) (s.goto c (resume (calls c) guard permit attempt result))
  | wake {c guard permit attempt delayMs}
      (hc : s.calls c = .sleeping guard permit attempt delayMs) :
      Moves s (.wake c) (s.goto c (.admitted guard permit attempt))
  | leave {c admission} (hc : s.calls c = .queued admission) :
      Moves s (.cancel c) (s.goto c (.rejected admission none))
  | abandon {c guard permit attempt} (hc : s.calls c = .attempting guard permit attempt) :
      Moves s (.cancel c) (s.goto c (.finishing guard permit none))
  | abandonSleep {c guard permit attempt delayMs}
      (hc : s.calls c = .sleeping guard permit attempt delayMs) :
      Moves s (.cancel c) (s.goto c (.finishing guard permit none))
  | dropBreakerGuard {c now guard permit outcome}
      (hc : s.calls c = .finishing guard permit outcome) :
      Moves s (.dropBreakerGuard c now)
        ((s.withBreaker (guard.drop now s.breaker)).goto c (afterGuard (calls c) permit outcome))
  | dropPermit {c outcome} (hc : s.calls c = .releasing outcome) :
      Moves s (.dropPermit c)
        ((s.withConcurrency s.upstream.concurrency.release).goto c (.over outcome))
  | dropBody {c resp} (hc : s.calls c = .streaming resp) :
      Moves s (.dropBody c)
        ((s.withConcurrency s.upstream.concurrency.release).goto c (.over (some (.ok resp))))

variable {calls} in
/-- Every step is one of these moves. -/
lemma moves_of_step {s t : State ρ} {a : Action ρ} (h : (machine calls).step s a = some t) :
    Moves calls s a t := by
  replace h : step calls s a = some t := h
  cases a with
  | check c now =>
      simp only [step] at h
      split at h
      · rename_i hc
        split at h
        · rename_i hb
          cases h
          exact .enter hc hb
        · rename_i hb
          cases h
          exact .refuse hc hb
      · cases h
  | bucket c answer =>
      simp only [step] at h
      split at h
      · rename_i hc
        split at h
        · rename_i hu
          cases h
          exact .pass hc hu
        · rename_i hu
          cases h
          exact .throttle hc hu
      · cases h
  | acquire c =>
      simp only [step] at h
      split at h
      · rename_i hc
        split at h
        · rename_i hk
          cases h
          exact .acquire hc hk
        · cases h
      · cases h
  | cancel c =>
      simp only [step] at h
      split at h
      · rename_i hc
        cases h
        exact .leave hc
      · rename_i hc
        cases h
        exact .abandon hc
      · rename_i hc
        cases h
        exact .abandonSleep hc
      · cases h
  | dropProbeGuard c =>
      simp only [step] at h
      split at h
      · rename_i hc
        cases h
        exact .dropProbeGuard hc
      · cases h
  | begin c =>
      simp only [step] at h
      split at h
      · rename_i hc
        cases h
        exact .begin hc
      · cases h
  | complete c result =>
      simp only [step] at h
      split at h
      · rename_i hc
        cases h
        exact .complete hc
      · cases h
  | wake c =>
      simp only [step] at h
      split at h
      · rename_i hc
        cases h
        exact .wake hc
      · cases h
  | dropBreakerGuard c now =>
      simp only [step] at h
      split at h
      · rename_i hc
        cases h
        exact .dropBreakerGuard hc
      · cases h
  | dropPermit c =>
      simp only [step] at h
      split at h
      · rename_i hc
        cases h
        exact .dropPermit hc
      · cases h
  | dropBody c =>
      simp only [step] at h
      split at h
      · rename_i hc
        cases h
        exact .dropBody hc
      · cases h

lemma breaker_of_checkLimit {s : State ρ} {answer : GovernorAnswer} {u : UpstreamState}
    {r : Except Error Unit} (h : s.upstream.checkLimit answer = (u, r)) :
    State.breaker { s with upstream := u } = s.breaker := by
  have hu := s.upstream.breaker_checkLimit answer
  rw [h] at hu
  exact hu

lemma concurrency_of_checkLimit {s : State ρ} {answer : GovernorAnswer} {u : UpstreamState}
    {r : Except Error Unit} (h : s.upstream.checkLimit answer = (u, r)) :
    u.concurrency = s.upstream.concurrency := by
  have hu := s.upstream.concurrency_checkLimit answer
  rw [h] at hu
  exact hu

variable {calls} in
/-- The breaker is touched by an admitting check and by the two guards, and by nothing else. -/
lemma Moves.breaker_cases {s t : State ρ} {a : Action ρ} (h : Moves calls s a t) :
    (t.breaker = s.breaker ∧ ∀ c now, a ≠ .dropBreakerGuard c now) ∨
    (∃ c now admission, a = .check c now ∧ s.breaker.checkAt now = (t.breaker, .ok admission)) ∨
    (∃ c admission outcome, a = .dropProbeGuard c ∧ s.calls c = .rejected admission outcome ∧
      t.breaker = (ProbeReleaseGuard.new admission).drop s.breaker) ∨
    (∃ c now guard permit outcome, a = .dropBreakerGuard c now ∧
      s.calls c = .finishing guard permit outcome ∧ t.breaker = guard.drop now s.breaker) := by
  cases h with
  | @enter c now b admission hc hb => exact .inr (.inl ⟨c, now, admission, rfl, hb⟩)
  | refuse hc hb => exact .inl ⟨(CircuitBreaker.checkAt_error hb).1, nofun⟩
  | pass hc hu => exact .inl ⟨breaker_of_checkLimit hu, nofun⟩
  | throttle hc hu => exact .inl ⟨breaker_of_checkLimit hu, nofun⟩
  | @dropProbeGuard c admission outcome hc =>
      exact .inr (.inr (.inl ⟨c, admission, outcome, rfl, hc, rfl⟩))
  | @dropBreakerGuard c now guard permit outcome hc =>
      exact .inr (.inr (.inr ⟨c, now, guard, permit, outcome, rfl, hc, rfl⟩))
  | _ => exact .inl ⟨rfl, nofun⟩

variable {calls} in
/-- A guard that is dropped belongs to a call that has ended, and it tells the breaker what it
carries. -/
lemma Moves.dropped {s t : State ρ} {c : ℕ} {now : Instant}
    (h : Moves calls s (.dropBreakerGuard c now) t) :
    ∃ guard permit outcome, s.calls c = .finishing guard permit outcome ∧
      t.breaker = guard.drop now s.breaker := by
  cases h with
  | dropBreakerGuard hc => exact ⟨_, _, _, hc, rfl⟩

variable {calls} in
/-- A step moves only its own call, whatever it does to the slot. -/
lemma Moves.calls_of_ne {s t : State ρ} {a : Action ρ} (h : Moves calls s a t) {d : ℕ}
    (hd : d ≠ a.call) : t.calls d = s.calls d := by
  cases h <;> exact State.calls_goto_ne _ _ _ _ hd

variable {calls} in
lemma Moves.polled {s t : State ρ} {a : Action ρ} (h : Moves calls s a t) :
    t.calls a.call ≠ .idle := by
  cases h with
  | @complete c result guard permit attempt hc =>
      intro hidle
      have hadm := admission_resume (calls c) guard permit attempt result
      simp only [Action.call, State.calls_goto_self] at hidle
      simp [hidle] at hadm
  | @dropBreakerGuard c now guard permit outcome hc =>
      simp only [Action.call, State.calls_goto_self, afterGuard]
      split
      · split <;> nofun
      · nofun
  | _ =>
      simp only [Action.call, State.calls_goto_self]
      nofun

end Governed

end Moaray
