import Moaray.Config.Validate
import Moaray.Framework.Pool
import Moaray.Gateway.Governed

/-!
# State that survives a reload

The per-upstream slots and the per-key buckets.  Both are concurrent maps from keys to shared
objects, so each is a `Pool`: the map, and every object that was ever put into it.  A slot's object
carries the calls running over it.

* `ensureForConfig`, `installKeyLimiters` — make room for a configuration.
* `retainForConfig`, `retainKeyLimiters` — reclaim what it no longer has.
* `ensureModel_eq`, `installKey_eq` — the source's two loops serve requests of a pool.
* `governanceOf_step` — traffic never changes what a slot was built for.
* `enforces_step` — nor the limit of its bucket or the thresholds of its breaker.

An object that leaves the map is still held by the providers that were built with it and by the
calls in flight, and it goes on working for them.  The pool keeps it at its position for this
reason, and positions are how a provider names its slot.

**Design.**  A pool knows when an object serves a request: when the object's settings are those
asked for.  For slots these are the governance and for buckets the limit, and `governanceOf_step`
is why a slot goes on serving what it was built for while calls run over it.
-/

namespace Moaray

open Framework

variable {ρ : Type}

/-- Per-upstream slots and per-key buckets: what a reload carries over.  Both are pools, since a
replaced object may still be in use. -/
structure StatefulState (ρ : Type) where
  /-- Keyed by state key. -/
  perUpstream : Pool String (Governed.State ρ)
  /-- Keyed by key id. -/
  perKey : Pool String TokenBucket

/-- What a slot was built for. -/
def governanceOf (slot : Governed.State ρ) : UpstreamGovernance := slot.upstream.governance

namespace StatefulState

/-- No slots and no buckets. -/
def default : StatefulState ρ where
  perUpstream := Pool.empty
  perKey := Pool.empty

/-- Give a model's upstream identity a slot, preserving one of the same governance. -/
def ensureModel (breaker : BreakerConfig) (P : Pool String (Governed.State ρ)) (m : ModelConfig) :
    Pool String (Governed.State ρ) :=
  let want := UpstreamGovernance.of m breaker
  let preserve := (P.find m.stateKey).any fun slot => decide (governanceOf slot = want)
  if preserve then P
  -- Absent, or its governance changed.
  else P.insert m.stateKey (Governed.State.init (UpstreamState.build m breaker))

/-- Ensure a slot for every upstream identity of a configuration.  A slot of the same governance is
kept with its state, and another one is replaced. -/
def ensureForConfig (s : StatefulState ρ) (config : RuntimeConfig) : StatefulState ρ :=
  { s with
    perUpstream :=
      (Table.rows config.models).foldl (ensureModel config.server.breaker) s.perUpstream }

/-- Give a limited key its bucket, preserving one of the same limit; counts the changes. -/
def installKey (acc : Pool String TokenBucket × ℕ) (k : KeyConfig) : Pool String TokenBucket × ℕ :=
  match k.rateLimit with
  | some limit =>
      let preserve := (acc.1.find k.id).any fun b => decide (b.limit = limit)
      if preserve then acc else (acc.1.insert k.id (TokenBucket.new limit), acc.2 + 1)
  | none => acc

/-- Install the buckets of every limited key, and count the new ones.  A bucket of the same limit is
kept with its tokens. -/
def installKeyLimiters (s : StatefulState ρ) (config : RuntimeConfig) : StatefulState ρ × ℕ :=
  let (perKey, updated) := config.keys.foldl installKey (s.perKey, 0)
  ({ s with perKey }, updated)

/-- Whether a configuration has a model of this upstream identity. -/
def liveUpstream (config : RuntimeConfig) (stateKey : String) : Bool :=
  (Table.rows config.models).any fun m => m.stateKey == stateKey

/-- Drop the slots of identities a configuration no longer has; counts them. -/
def retainForConfig (s : StatefulState ρ) (config : RuntimeConfig) : StatefulState ρ × ℕ :=
  let kept := s.perUpstream.retain (liveUpstream config)
  ({ s with perUpstream := kept }, s.perUpstream.index.size - kept.index.size)

/-- Whether a configuration limits a key of this id. -/
def liveKey (config : RuntimeConfig) (id : String) : Bool :=
  config.keys.any fun k => k.rateLimit.isSome && k.id == id

/-- Drop the buckets of keys a configuration no longer limits; counts them. -/
def retainKeyLimiters (s : StatefulState ρ) (config : RuntimeConfig) : StatefulState ρ × ℕ :=
  let kept := s.perKey.retain (liveKey config)
  ({ s with perKey := kept }, s.perKey.index.size - kept.index.size)

/-- The slot serving a state key. -/
def upstream (s : StatefulState ρ) (stateKey : String) : Option ℕ := s.perUpstream.lookup stateKey

/-- A stateful layer for a configuration, at startup: the same two steps as in a reload, from
nothing. -/
def fromConfig (config : RuntimeConfig) : StatefulState ρ :=
  ((default.ensureForConfig config).installKeyLimiters config).1

/-- Enforce the bucket of a key, if it has one; the bucket takes a token.  A key without a limit is
always let through. -/
def checkKeyLimit (s : StatefulState ρ) (keyId : String) (answer : GovernorAnswer) :
    StatefulState ρ × Except Error Unit :=
  match s.perKey.lookup keyId with
  | some r =>
      match s.perKey.deref r with
      | some b => ({ s with perKey := s.perKey.update r (b.check answer).1 }, (b.check answer).2)
      | none => (s, .ok ())
  | none => (s, .ok ())

end StatefulState

/-! ## Slots are served by their governance -/

def freshSlot (g : UpstreamGovernance) : Governed.State ρ :=
  Governed.State.init
    { limiter := g.rateLimit.map TokenBucket.new
      concurrency := Concurrency.new g.maxConcurrency
      breaker := CircuitBreaker.new g.breaker
      governance := g }

@[simp] lemma governanceOf_freshSlot (g : UpstreamGovernance) :
    governanceOf (freshSlot g : Governed.State ρ) = g := rfl

lemma enforces_freshSlot (g : UpstreamGovernance) :
    (freshSlot g : Governed.State ρ).upstream.Enforces where
  limiter := by
    cases hg : g.rateLimit <;> simp [freshSlot, Governed.State.init, hg]
  breaker := rfl

namespace StatefulState

lemma ensureModel_eq (breaker : BreakerConfig) (P : Pool String (Governed.State ρ))
    (m : ModelConfig) :
    ensureModel breaker P m =
      P.ensure governanceOf freshSlot m.stateKey (UpstreamGovernance.of m breaker) := rfl

/-- What a configuration asks of the slots. -/
def requests (config : RuntimeConfig) : List (String × UpstreamGovernance) :=
  (Table.rows config.models).map fun m =>
    (m.stateKey, UpstreamGovernance.of m config.server.breaker)

/-- The loop over the models, in whatever order they are visited, serves their requests. -/
lemma foldl_ensureModel (breaker : BreakerConfig) (P : Pool String (Governed.State ρ))
    (ms : List ModelConfig) :
    ms.foldl (ensureModel breaker) P =
      P.ensureAll governanceOf freshSlot
        (ms.map fun m => (m.stateKey, UpstreamGovernance.of m breaker)) := by
  induction ms generalizing P with
  | nil => rfl
  | cons m ms ih =>
      rw [List.foldl_cons, ih, List.map_cons, Pool.ensureAll_cons, ensureModel_eq]

/-- The requests a validated configuration makes for one identity agree. -/
lemma of_eq_of_stateKey {P : Platform} {config : RuntimeConfig} (h : Validated P config)
    {m m' : ModelConfig} (hm : m ∈ Table.rows config.models)
    (hm' : m' ∈ Table.rows config.models) (hkey : m.stateKey = m'.stateKey)
    (breaker : BreakerConfig) :
    UpstreamGovernance.of m breaker = UpstreamGovernance.of m' breaker := by
  obtain ⟨hrate, hconc⟩ := governance_agrees h hm hm' hkey
  simp [UpstreamGovernance.of, hrate, hconc]

def keyRequest (k : KeyConfig) : Option (String × RateLimit) :=
  k.rateLimit.map fun limit => (k.id, limit)

lemma installKey_eq (acc : Pool String TokenBucket × ℕ) (k : KeyConfig) :
    (installKey acc k).1 =
      match keyRequest k with
      | some i => acc.1.ensure TokenBucket.limit TokenBucket.new i.1 i.2
      | none => acc.1 := by
  unfold installKey keyRequest
  cases k.rateLimit with
  | none => rfl
  | some limit =>
      simp only [Option.map_some, Pool.ensure]
      split <;> rfl

end StatefulState

/-! ## Traffic leaves a slot's governance alone -/

namespace Governed

variable {calls : ℕ → Call} {s t : State ρ}

/-- No step of the calls over a slot changes what the slot was built for.  It is read off from the
parts that never change: the limit, the capacity and the thresholds. -/
theorem governanceOf_step {a : Action ρ} (h : (machine calls).step s a = some t) :
    governanceOf t = governanceOf s := by
  cases moves_of_step h with
  | @pass c answer admission u hc hu =>
      have hgov := s.upstream.governance_checkLimit answer
      rw [hu] at hgov
      exact hgov
  | @throttle c answer admission u e hc hu =>
      have hgov := s.upstream.governance_checkLimit answer
      rw [hu] at hgov
      exact hgov
  | _ => rfl

/-- The parts of a slot stay those its governance asks for, whatever its calls do. -/
theorem enforces_step {a : Action ρ} (h : (machine calls).step s a = some t)
    (hs : s.upstream.Enforces) : t.upstream.Enforces := by
  have hbreaker : ∀ b : CircuitBreaker, b.cfg = s.breaker.cfg →
      (s.withBreaker b).upstream.Enforces :=
    fun b hb => ⟨hs.limiter, hb.trans hs.breaker⟩
  have hlimit : ∀ answer u r, s.upstream.checkLimit answer = (u, r) → u.Enforces := by
    intro answer u r hu
    have hchecked := hs.checkLimit answer
    rwa [hu] at hchecked
  cases moves_of_step h with
  | @enter c now b admission hc hb =>
      have hcfg := CircuitBreaker.cfg_checkAt s.breaker now
      rw [hb] at hcfg
      exact hbreaker b hcfg
  | @refuse c now b e hc hb =>
      have hcfg := CircuitBreaker.cfg_checkAt s.breaker now
      rw [hb] at hcfg
      exact hbreaker b hcfg
  | @pass c answer admission u hc hu => exact hlimit answer u _ hu
  | @throttle c answer admission u e hc hu => exact hlimit answer u _ hu
  | dropProbeGuard hc => exact hbreaker _ (ProbeReleaseGuard.cfg_drop ..)
  | dropBreakerGuard hc => exact hbreaker _ (BreakerGuard.cfg_drop ..)
  | acquire | dropPermit | dropBody => exact ⟨hs.limiter, hs.breaker⟩
  | _ => exact hs

end Governed

end Moaray
