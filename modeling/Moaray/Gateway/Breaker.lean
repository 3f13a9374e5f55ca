import Moaray.Config.Runtime
import Moaray.Core.Provider

/-!
# Per-upstream circuit breaker (closed → open → half-open → closed)

The state machine of one `CircuitBreaker`, with its operations as pure functions of the clock
reading they are called at.  Every operation runs under one mutex, so each is one atomic step of
the systems built on top.

* `checkAt`, `onSuccessAt`, `onFailureAt`, `releaseProbe` — the gate, the two reports, and the
  return of a probe slot.
* `checkAt_ok`, `checkAt_error` — what the gate can do.
* `onSuccessAt_closed` and its siblings — what a report does, one equation for each state and
  admission.
* `cfg_checkAt` and its siblings — the thresholds never change.

Clock readings are nanoseconds of the monotonic clock; `durationSince` saturates at zero, as the
source's does when the earlier instant is the later one.

**Design.**  The gate hands out an admission and the reports bring it back.  Whether they do, and
whether each comes back once, is not the breaker's business: it acts on what it is told, so a
report nobody owes it, or one that comes long after its check, is a step like any other.
Invariants of larger systems are read off the equations here, and the definitions are not unfolded
again.
-/

namespace Moaray

/-- A counter below a bound counts one more without wrapping. -/
lemma toNat_succ_of_lt {n k : UInt32} (h : n < k) : (n + 1).toNat = n.toNat + 1 := by
  have hk : k.toNat < 2 ^ 32 := k.toNat_lt
  have hlt : n.toNat < k.toNat := UInt32.lt_iff_toNat_lt.1 h
  rw [UInt32.toNat_add, UInt32.toNat_one]
  omega

/-- Public breaker state label.  The clock alone never changes it; a check or a report does. -/
inductive BreakerState
  | closed
  | opened
  | halfOpen
  deriving DecidableEq, Repr

/-- Which kind of admission a call was granted.  The call keeps it, and reports under it. -/
inductive Admission
  /-- Admitted while closed. -/
  | normal
  /-- Admitted as the single half-open probe. -/
  | probe
  deriving DecidableEq, Repr

/-- The breaker's state, as the mutex guards it, with its thresholds.  Each counter is in use in one
of the states only. -/
structure CircuitBreaker where
  cfg : BreakerConfig
  state : BreakerState
  consecutiveFailures : UInt32
  consecutiveSuccesses : UInt32
  openedAt : Option Instant
  probeInFlight : Bool
  deriving DecidableEq, Repr

namespace CircuitBreaker

/-- A breaker starts closed. -/
def new (cfg : BreakerConfig) : CircuitBreaker where
  cfg := cfg
  state := .closed
  consecutiveFailures := 0
  consecutiveSuccesses := 0
  openedAt := none
  probeInFlight := false

/-- Whether the open breaker's cooldown has elapsed at `now`.  A breaker that has never opened has
none to elapse. -/
def cooledDown (b : CircuitBreaker) (now : Instant) : Bool :=
  match b.openedAt with
  | some t => decide (durationFromMillis b.cfg.openMs ≤ now.durationSince t)
  | none => false

/-- Gate a request: the admission granted at `now`, or `circuitOpen`.  A check of an open breaker
that has cooled down moves it to half-open and reserves the one probe slot. -/
def checkAt (b : CircuitBreaker) (now : Instant) : CircuitBreaker × Except Error Admission :=
  match b.state with
  | .closed => (b, .ok .normal)
  | .halfOpen =>
      -- Only one probe at a time may test a recovering upstream.
      if b.probeInFlight then (b, .error .circuitOpen)
      else ({ b with probeInFlight := true }, .ok .probe)
  | .opened =>
      if b.cooledDown now then
        ({ b with state := .halfOpen, consecutiveSuccesses := 0, probeInFlight := true },
          .ok .probe)
      else (b, .error .circuitOpen)

/-- Record a success of a call admitted as `admission`.  While the breaker is half-open only a
probe's counts, and while it is open none does. -/
def onSuccessAt (b : CircuitBreaker) (_now : Instant) (admission : Admission) :
    CircuitBreaker :=
  match b.state with
  | .closed => { b with consecutiveFailures := 0 }
  | .halfOpen =>
      if admission = .probe then
        let successes := b.consecutiveSuccesses + 1
        if b.cfg.halfOpenSuccesses ≤ successes then
          { b with
            state := .closed, consecutiveFailures := 0, consecutiveSuccesses := 0,
            openedAt := none, probeInFlight := false }
        else { b with consecutiveSuccesses := successes, probeInFlight := false }
      else b
  | .opened => b

/-- Record a failure of a call admitted as `admission`.  While the breaker is open, the instant it
counts from is written again. -/
def onFailureAt (b : CircuitBreaker) (now : Instant) (admission : Admission) : CircuitBreaker :=
  match b.state with
  | .closed =>
      let failures := b.consecutiveFailures + 1
      if b.cfg.failureThreshold ≤ failures then
        { b with consecutiveFailures := failures, state := .opened, openedAt := some now }
      else { b with consecutiveFailures := failures }
  | .halfOpen =>
      if admission = .probe then
        { b with
          state := .opened, openedAt := some now, consecutiveSuccesses := 0,
          probeInFlight := false }
      else b
  | .opened => { b with openedAt := some now }

/-- Release a reserved half-open probe slot without recording an outcome.  In another state there is
nothing to release. -/
def releaseProbe (b : CircuitBreaker) : CircuitBreaker :=
  if b.state = .halfOpen then { b with probeInFlight := false } else b

/-! ## What each operation can do -/

variable {b b' : CircuitBreaker} {now : Instant} {a : Admission}

lemma cooledDown_iff :
    b.cooledDown now = true ↔
      ∃ t, b.openedAt = some t ∧ durationFromMillis b.cfg.openMs ≤ now - t := by
  unfold cooledDown Instant.durationSince
  cases b.openedAt <;> simp

/-- An admitting check: a closed breaker admits a normal call, a half-open breaker without an
outstanding probe and a cooled-down open breaker admit the probe. -/
lemma checkAt_ok (h : b.checkAt now = (b', .ok a)) :
    (b.state = .closed ∧ a = .normal ∧ b' = b) ∨
    (b.state = .halfOpen ∧ b.probeInFlight = false ∧ a = .probe ∧
      b' = { b with probeInFlight := true }) ∨
    (b.state = .opened ∧ b.cooledDown now = true ∧ a = .probe ∧
      b' = { b with state := .halfOpen, consecutiveSuccesses := 0, probeInFlight := true }) := by
  unfold checkAt at h
  cases hs : b.state with
  | closed =>
      left
      simp only [hs, Prod.mk.injEq, Except.ok.injEq] at h
      exact ⟨rfl, h.2.symm, h.1.symm⟩
  | halfOpen =>
      right; left
      simp only [hs] at h
      split at h
      · simp at h
      · rename_i hp
        simp only [Prod.mk.injEq, Except.ok.injEq] at h
        exact ⟨rfl, by simpa using hp, h.2.symm, h.1.symm⟩
  | opened =>
      right; right
      simp only [hs] at h
      split at h
      · rename_i hc
        simp only [Prod.mk.injEq, Except.ok.injEq] at h
        exact ⟨rfl, hc, h.2.symm, h.1.symm⟩
      · simp at h

/-- A refusing check changes nothing, and the error is `circuitOpen`. -/
lemma checkAt_error {e : Error} (h : b.checkAt now = (b', .error e)) :
    b' = b ∧ e = .circuitOpen ∧ b.state ≠ .closed := by
  unfold checkAt at h
  cases hs : b.state with
  | closed => simp [hs] at h
  | halfOpen =>
      simp only [hs] at h
      split at h
      · simp only [Prod.mk.injEq, Except.error.injEq] at h
        exact ⟨h.1.symm, h.2.symm, by simp⟩
      · simp at h
  | opened =>
      simp only [hs] at h
      split at h
      · simp at h
      · simp only [Prod.mk.injEq, Except.error.injEq] at h
        exact ⟨h.1.symm, h.2.symm, by simp⟩

lemma onSuccessAt_closed (h : b.state = .closed) :
    b.onSuccessAt now a = { b with consecutiveFailures := 0 } := by
  simp [onSuccessAt, h]

lemma onSuccessAt_opened (h : b.state = .opened) : b.onSuccessAt now a = b := by
  simp [onSuccessAt, h]

lemma onSuccessAt_halfOpen_normal (h : b.state = .halfOpen) : b.onSuccessAt now .normal = b := by
  simp [onSuccessAt, h]

lemma onSuccessAt_halfOpen_probe (h : b.state = .halfOpen) :
    b.onSuccessAt now .probe =
      if b.cfg.halfOpenSuccesses ≤ b.consecutiveSuccesses + 1 then
        { b with
          state := .closed, consecutiveFailures := 0, consecutiveSuccesses := 0,
          openedAt := none, probeInFlight := false }
      else
        { b with
          consecutiveSuccesses := b.consecutiveSuccesses + 1, probeInFlight := false } := by
  simp [onSuccessAt, h]

lemma onFailureAt_closed (h : b.state = .closed) :
    b.onFailureAt now a =
      if b.cfg.failureThreshold ≤ b.consecutiveFailures + 1 then
        { b with
          consecutiveFailures := b.consecutiveFailures + 1, state := .opened,
          openedAt := some now }
      else { b with consecutiveFailures := b.consecutiveFailures + 1 } := by
  simp [onFailureAt, h]

lemma onFailureAt_opened (h : b.state = .opened) :
    b.onFailureAt now a = { b with openedAt := some now } := by
  simp [onFailureAt, h]

lemma onFailureAt_halfOpen_normal (h : b.state = .halfOpen) : b.onFailureAt now .normal = b := by
  simp [onFailureAt, h]

lemma onFailureAt_halfOpen_probe (h : b.state = .halfOpen) :
    b.onFailureAt now .probe =
      { b with
        state := .opened, openedAt := some now, consecutiveSuccesses := 0,
        probeInFlight := false } := by
  simp [onFailureAt, h]

lemma releaseProbe_halfOpen (h : b.state = .halfOpen) :
    b.releaseProbe = { b with probeInFlight := false } := by
  simp [releaseProbe, h]

@[simp] lemma state_releaseProbe (b : CircuitBreaker) : b.releaseProbe.state = b.state := by
  unfold releaseProbe
  split <;> rfl

/-! ## The thresholds never change -/

variable (b now a)

@[simp] lemma cfg_checkAt : (b.checkAt now).1.cfg = b.cfg := by
  unfold checkAt
  cases b.state <;> simp only [] <;> (try split) <;> rfl

@[simp] lemma cfg_onSuccessAt : (b.onSuccessAt now a).cfg = b.cfg := by
  unfold onSuccessAt
  cases b.state <;> cases a <;> simp
  split <;> rfl

@[simp] lemma cfg_onFailureAt : (b.onFailureAt now a).cfg = b.cfg := by
  unfold onFailureAt
  cases b.state <;> cases a <;> simp <;> split <;> rfl

@[simp] lemma cfg_releaseProbe : b.releaseProbe.cfg = b.cfg := by
  unfold releaseProbe
  split <;> rfl

end CircuitBreaker

end Moaray
