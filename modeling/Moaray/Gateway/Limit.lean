import Moaray.Gateway.Breaker

/-!
# Token buckets, concurrency caps, and the per-upstream slot

The two limiters and the `UpstreamState` that bundles them with the breaker.

* `TokenBucket` — a limiter with the limit it was built from; `Sound`: it enforces that limit.
* `Concurrency` — a semaphore, or none; `acquire` and `release`.
* `UpstreamState`, `UpstreamGovernance` — a slot, and the settings it was built for.
* `Enforces` — the parts of a slot are those its settings ask for.

The token bucket's arithmetic belongs to the rate-limiting library, so its verdict is an input:
`GovernorAnswer` is what the limiter said and the cell it kept.  The semaphore is the count of
available permits; which waiter is served next is left open, so a queue of waiting calls is any of
its orders.

**Design.**  A slot outlives the configuration it was built for, so it carries its settings with
it, and a later configuration is compared with those.  A cap of zero is no cap in the source, and
none here.
-/

namespace Moaray

/-- The quota a bucket enforces: so many cells a second, and a burst. -/
structure Quota where
  perSecond : UInt32
  burst : UInt32
  deriving DecidableEq, Repr

/-- What the rate limiter answers: its verdict and the new content of its cell.  Either may be
anything. -/
structure GovernorAnswer where
  allowed : Bool
  cell : ℕ
  deriving DecidableEq, Repr

/-- One token-bucket limiter and the validated limit it was built from, by which it is compared with
a new one. -/
structure TokenBucket where
  quota : Quota
  cell : ℕ
  limit : RateLimit
  deriving DecidableEq, Repr

namespace TokenBucket

/-- Build a bucket from a validated limit. -/
def new (limit : RateLimit) : TokenBucket where
  quota := { perSecond := max limit.rps 1, burst := max (max limit.burst limit.rps) 1 }
  cell := 0
  limit := limit

/-- Try to consume one token.  The limiter library answers, and the bucket keeps the cell it leaves.
-/
def check (b : TokenBucket) (answer : GovernorAnswer) : TokenBucket × Except Error Unit :=
  ({ b with cell := answer.cell }, if answer.allowed then .ok () else .error .rateLimited)

@[simp] lemma limit_new (limit : RateLimit) : (new limit).limit = limit := rfl

@[simp] lemma limit_check (b : TokenBucket) (answer : GovernorAnswer) :
    (b.check answer).1.limit = b.limit := rfl

/-- The bucket enforces the quota of the limit it names. -/
def Sound (b : TokenBucket) : Prop := b.quota = (new b.limit).quota

lemma sound_new (limit : RateLimit) : (new limit).Sound := rfl

lemma Sound.check {b : TokenBucket} (h : b.Sound) (answer : GovernorAnswer) :
    (b.check answer).1.Sound := h

end TokenBucket

/-- A counting semaphore: the permits not handed out.  Who holds the others is no part of it. -/
structure Semaphore where
  available : ℕ
  deriving DecidableEq, Repr

/-- Per-upstream concurrency cap; `none` is unbounded.  A permit is held by an attempt in flight or
by a body that is being streamed. -/
structure Concurrency where
  sem : Option Semaphore
  deriving DecidableEq, Repr

namespace Concurrency

/-- A cap of `max` calls in flight, or unbounded when `max` is absent or zero. -/
def new (max : Option UInt32) : Concurrency where
  sem := match max with
    | some n => if 0 < n then some { available := n.toNat } else none
    | none => none

/-- Acquire a permit: `none` while every permit is out, and otherwise whether a permit is now
held (an unbounded cap hands out none). -/
def acquire (c : Concurrency) : Option (Concurrency × Bool) :=
  match c.sem with
  | none => some (c, false)
  | some sem =>
      if 0 < sem.available then some ({ sem := some { available := sem.available - 1 } }, true)
      else none

/-- Drop a held permit. -/
def release (c : Concurrency) : Concurrency :=
  { sem := c.sem.map fun sem => { available := sem.available + 1 } }

end Concurrency

/-- The governance knobs that define a slot's configuration: two models share a slot only if they
agree on all of them. -/
structure UpstreamGovernance where
  rateLimit : Option RateLimit
  maxConcurrency : Option UInt32
  breaker : BreakerConfig
  deriving DecidableEq, Repr

/-- Per-upstream stateful data that persists across config reloads: what a reload must not reset. -/
structure UpstreamState where
  limiter : Option TokenBucket
  concurrency : Concurrency
  breaker : CircuitBreaker
  governance : UpstreamGovernance
  deriving DecidableEq, Repr

def UpstreamGovernance.of (model : ModelConfig) (breakerCfg : BreakerConfig) :
    UpstreamGovernance where
  rateLimit := model.rateLimit
  maxConcurrency := model.maxConcurrency
  breaker := breakerCfg

namespace UpstreamState

def build (model : ModelConfig) (breakerCfg : BreakerConfig) : UpstreamState where
  limiter := model.rateLimit.map TokenBucket.new
  concurrency := Concurrency.new model.maxConcurrency
  breaker := CircuitBreaker.new breakerCfg
  governance := UpstreamGovernance.of model breakerCfg

/-- Enforce the per-upstream limiter.  A slot without one lets every call through. -/
def checkLimit (s : UpstreamState) (answer : GovernorAnswer) :
    UpstreamState × Except Error Unit :=
  match s.limiter with
  | some b => ({ s with limiter := some (b.check answer).1 }, (b.check answer).2)
  | none => (s, .ok ())

/-- A bucket that has a token lets a call pass, and so does a slot without one. -/
lemma checkLimit_allowed (s : UpstreamState) (cell : ℕ) :
    ∃ u, s.checkLimit { allowed := true, cell } = (u, .ok ()) ∧ u.concurrency = s.concurrency := by
  unfold checkLimit
  cases s.limiter with
  | none => exact ⟨s, rfl, rfl⟩
  | some b => exact ⟨_, rfl, rfl⟩

@[simp] lemma breaker_checkLimit (s : UpstreamState) (answer : GovernorAnswer) :
    (s.checkLimit answer).1.breaker = s.breaker := by
  unfold checkLimit
  cases s.limiter <;> rfl

@[simp] lemma concurrency_checkLimit (s : UpstreamState) (answer : GovernorAnswer) :
    (s.checkLimit answer).1.concurrency = s.concurrency := by
  unfold checkLimit
  cases s.limiter <;> rfl

/-- The parts of a slot are those its governance asks for: the limit of its bucket, and the
thresholds of its breaker.  The cap is not among them, since the permits say it only together with
the calls. -/
structure Enforces (u : UpstreamState) : Prop where
  limiter : u.limiter.map TokenBucket.limit = u.governance.rateLimit
  breaker : u.breaker.cfg = u.governance.breaker

lemma Enforces.checkLimit {u : UpstreamState} (h : u.Enforces) (answer : GovernorAnswer) :
    (u.checkLimit answer).1.Enforces := by
  unfold UpstreamState.checkLimit
  split
  · rename_i b hb
    refine ⟨?_, h.breaker⟩
    have hlimiter := h.limiter
    rw [hb] at hlimiter
    simpa using hlimiter
  · exact h

@[simp] lemma governance_checkLimit (s : UpstreamState) (answer : GovernorAnswer) :
    (s.checkLimit answer).1.governance = s.governance := by
  unfold checkLimit
  cases s.limiter <;> rfl

end UpstreamState

end Moaray
