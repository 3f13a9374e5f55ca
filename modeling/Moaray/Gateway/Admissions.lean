import Moaray.Gateway.Governed

/-!
# Admissions: who holds what of a breaker

What the protection layer is for, without the gates, permits, retries and futures around it: a
breaker, and callers that each hold at most one admission and give it back exactly once, either
with an outcome (`report`) or without one (`release`).

* `Coherent` — the invariant that ties the breaker's flag and counters to the admissions held;
  `Coherent.step` for one event, `Coherent.of_reachable` for whole runs.
* `Coherent.eventually_admits` — a breaker whose probe nobody holds admits again.
* `Governed.events`, `Governed.step_refines` — an interleaving of governed calls is a run of this
  system, a call holding the admission whose guard it has not dropped yet.
* `Governed.single_probe` — the invariant for every interleaving of governed calls.

The probe slot is a flag in the breaker and a guard in some call.  `Coherent` says that the two
agree: the flag is set exactly while one caller holds the probe admission, and then the breaker is
half-open.  A probe that is reported always clears the flag; a normal admission that comes home
late, to a breaker that is half-open by now, must not touch it.

**Design.**  This is the abstract model of the layer: a set of holders and a breaker.  The proofs
about flags and counters are made here, where a step is one of three events, and reach the calls by
a simulation in which all but three kinds of steps are invisible.
-/

namespace Moaray

open Framework

/-- A breaker and the admission each caller holds.  Callers are numbered, and hold at most one at a
time. -/
@[ext]
structure Admissions where
  breaker : CircuitBreaker
  holds : ℕ → Option Admission

namespace Admissions

/-- What happens to the admissions of a breaker: one is asked for, or one is given back, with an
outcome or without. -/
inductive Event
  /-- A caller without an admission asks for one. -/
  | check (c : ℕ) (now : Instant)
  /-- A holder gives its admission back without an outcome. -/
  | release (c : ℕ)
  /-- A holder gives its admission back with an outcome. -/
  | report (c : ℕ) (now : Instant) (succeeded : Bool)
  deriving DecidableEq, Repr

def init (cfg : BreakerConfig) : Admissions where
  breaker := CircuitBreaker.new cfg
  holds _ := none

def set (s : Admissions) (b : CircuitBreaker) (c : ℕ) (a : Option Admission) : Admissions where
  breaker := b
  holds := Function.update s.holds c a

def step (s : Admissions) : Event → Option Admissions
  | .check c now =>
      match s.holds c with
      | none =>
          match s.breaker.checkAt now with
          | (b, .ok a) => some (s.set b c (some a))
          | (b, .error _) => some (s.set b c none)
      | some _ => none
  | .release c =>
      match s.holds c with
      | some .probe => some (s.set s.breaker.releaseProbe c none)
      | some .normal => some (s.set s.breaker c none)
      | none => none
  | .report c now succeeded =>
      match s.holds c with
      | some a =>
          let b := if succeeded then s.breaker.onSuccessAt now a else s.breaker.onFailureAt now a
          some (s.set b c none)
      | none => none

def machine : Machine Admissions Event where
  step := step

/-! ## The invariant -/

/-- The probe flag is set exactly while somebody holds the one probe admission, which happens
only half-open, and the counters stay below the thresholds that would have moved the state. -/
structure Coherent (s : Admissions) : Prop where
  inFlight : s.breaker.probeInFlight = true ↔ ∃ c, s.holds c = some .probe
  unique : ∀ c d, s.holds c = some .probe → s.holds d = some .probe → c = d
  halfOpen : ∀ c, s.holds c = some .probe → s.breaker.state = .halfOpen
  openedAt : s.breaker.state = .opened → s.breaker.openedAt.isSome
  failures : s.breaker.state = .closed →
    s.breaker.consecutiveFailures.toNat < max s.breaker.cfg.failureThreshold.toNat 1
  successes : s.breaker.state = .halfOpen →
    s.breaker.consecutiveSuccesses.toNat < max s.breaker.cfg.halfOpenSuccesses.toNat 1

variable {s t : Admissions} {c : ℕ} {now : Instant}

@[simp] lemma breaker_set (s : Admissions) (b : CircuitBreaker) (c : ℕ) (a : Option Admission) :
    (s.set b c a).breaker = b := rfl

@[simp] lemma holds_set_self (s : Admissions) (b : CircuitBreaker) (c : ℕ)
    (a : Option Admission) : (s.set b c a).holds c = a := Function.update_self ..

lemma holds_set_ne (s : Admissions) (b : CircuitBreaker) (a : Option Admission) {c d : ℕ}
    (h : d ≠ c) : (s.set b c a).holds d = s.holds d := Function.update_of_ne h ..

lemma Coherent.init (cfg : BreakerConfig) : Coherent (init cfg) where
  inFlight := by simp [Admissions.init, CircuitBreaker.new]
  unique := by simp [Admissions.init]
  halfOpen := by simp [Admissions.init]
  openedAt := by simp [Admissions.init, CircuitBreaker.new]
  failures := by simp [Admissions.init, CircuitBreaker.new]
  successes := by simp [Admissions.init, CircuitBreaker.new]

/-- A probe can only be granted while nobody holds one. -/
lemma Coherent.no_probe_of_flag (hs : Coherent s) (h : s.breaker.probeInFlight = false) (d : ℕ) :
    s.holds d ≠ some .probe := by
  intro hd
  have hflag : s.breaker.probeInFlight = true := hs.inFlight.2 ⟨d, hd⟩
  rw [h] at hflag
  cases hflag

/-- A probe is held by nobody while the breaker is closed or open. -/
lemma Coherent.no_probe_of_state (hs : Coherent s) (h : s.breaker.state ≠ .halfOpen) (d : ℕ) :
    s.holds d ≠ some .probe :=
  fun hd => h (hs.halfOpen d hd)

lemma Coherent.flag_of_no_probe (hs : Coherent s) (h : ∀ d, s.holds d ≠ some .probe) :
    s.breaker.probeInFlight = false := by
  rw [← Bool.not_eq_true, hs.inFlight]
  rintro ⟨d, hd⟩
  exact h d hd

/-- Granting the probe to `c` while nobody holds one. -/
lemma Coherent.grant (hnone : ∀ d, s.holds d ≠ some .probe)
    {b : CircuitBreaker} (hcfg : b.cfg = s.breaker.cfg) (hstate : b.state = .halfOpen)
    (hflag : b.probeInFlight = true)
    (hsucc : b.consecutiveSuccesses.toNat < max s.breaker.cfg.halfOpenSuccesses.toNat 1) :
    Coherent (s.set b c (some .probe)) := by
  have honly : ∀ d, (s.set b c (some .probe)).holds d = some .probe → d = c := by
    intro d hd
    by_contra hne
    rw [holds_set_ne _ _ _ hne] at hd
    exact hnone d hd
  refine ⟨?_, ?_, ?_, ?_, ?_, ?_⟩
  · exact ⟨fun _ => ⟨c, holds_set_self ..⟩, fun _ => hflag⟩
  · intro d e hd he
    rw [honly d hd, honly e he]
  · intro _ _
    exact hstate
  · intro h
    simp [hstate] at h
  · intro h
    simp [hstate] at h
  · intro _
    simpa [hcfg] using hsucc

/-- Taking back the admission of `c` when afterwards nobody holds the probe. -/
lemma Coherent.settle {b : CircuitBreaker} (hnone : ∀ d, d ≠ c → s.holds d ≠ some .probe)
    (hflag : b.probeInFlight = false) (hopen : b.state = .opened → b.openedAt.isSome)
    (hfail : b.state = .closed → b.consecutiveFailures.toNat < max b.cfg.failureThreshold.toNat 1)
    (hsucc : b.state = .halfOpen →
      b.consecutiveSuccesses.toNat < max b.cfg.halfOpenSuccesses.toNat 1) :
    Coherent (s.set b c none) := by
  have hno : ∀ d, (s.set b c none).holds d ≠ some .probe := by
    intro d hd
    by_cases hdc : d = c
    · rw [hdc, holds_set_self] at hd
      cases hd
    · rw [holds_set_ne _ _ _ hdc] at hd
      exact hnone d hdc hd
  refine ⟨?_, ?_, ?_, hopen, hfail, hsucc⟩
  · rw [breaker_set, hflag]
    simp [hno]
  · intro d _ hd
    exact absurd hd (hno d)
  · intro d hd
    exact absurd hd (hno d)

/-- Changing what `c` holds between nothing and a normal admission, at the same breaker. -/
lemma Coherent.relabel (hs : Coherent s) {a : Option Admission} (hc : s.holds c ≠ some .probe)
    (ha : a ≠ some .probe) : Coherent (s.set s.breaker c a) := by
  have hsame : ∀ d, (s.set s.breaker c a).holds d = some .probe ↔ s.holds d = some .probe := by
    intro d
    by_cases hdc : d = c
    · subst hdc
      simp [ha, hc]
    · rw [holds_set_ne _ _ _ hdc]
  refine ⟨?_, ?_, ?_, hs.openedAt, hs.failures, hs.successes⟩
  · simpa [hsame] using hs.inFlight
  · intro d e hd he
    exact hs.unique d e ((hsame d).1 hd) ((hsame e).1 he)
  · intro d hd
    exact hs.halfOpen d ((hsame d).1 hd)

lemma cfg_step {e : Event} (h : s.step e = some t) : t.breaker.cfg = s.breaker.cfg := by
  cases e with
  | check c now =>
      simp only [Admissions.step] at h
      split at h
      · split at h
        all_goals
          rename_i hb
          cases h
          simpa [hb] using s.breaker.cfg_checkAt now
      · cases h
  | release c =>
      simp only [Admissions.step] at h
      split at h <;> cases h <;> simp
  | report c now succeeded =>
      simp only [Admissions.step] at h
      split at h
      · cases h
        cases succeeded <;> simp
      · cases h

/-! ### One event -/

lemma Coherent.check {b : CircuitBreaker} {a : Admission} (hs : Coherent s)
    (hc : s.holds c = none) (h : s.breaker.checkAt now = (b, .ok a)) :
    Coherent (s.set b c (some a)) := by
  rcases CircuitBreaker.checkAt_ok h with ⟨-, rfl, rfl⟩ | ⟨hst, hp, rfl, rfl⟩ | ⟨hst, -, rfl, rfl⟩
  · exact hs.relabel (by simp [hc]) (by simp)
  · exact Coherent.grant (hs.no_probe_of_flag hp) rfl hst rfl (hs.successes hst)
  · exact Coherent.grant (hs.no_probe_of_state (by simp [hst])) rfl rfl rfl (by simp)

lemma Coherent.release_probe (hs : Coherent s) (hc : s.holds c = some .probe) :
    Coherent (s.set s.breaker.releaseProbe c none) := by
  have hst := hs.halfOpen c hc
  rw [CircuitBreaker.releaseProbe_halfOpen hst]
  refine Coherent.settle ?_ rfl hs.openedAt hs.failures hs.successes
  intro d hdc hd
  exact hdc (hs.unique d c hd hc)

/-- A holder of a normal admission never touches the probe machinery. -/
lemma Coherent.report_normal (hs : Coherent s) (hc : s.holds c = some .normal)
    (succeeded : Bool) :
    Coherent (s.set (if succeeded then s.breaker.onSuccessAt now .normal
      else s.breaker.onFailureAt now .normal) c none) := by
  have hcn : s.holds c ≠ some .probe := by simp [hc]
  cases hst : s.breaker.state with
  | closed =>
      have hnone := hs.no_probe_of_state (by simp [hst])
      have hflag := hs.flag_of_no_probe hnone
      cases succeeded with
      | true =>
          simp only [if_true, CircuitBreaker.onSuccessAt_closed hst]
          exact Coherent.settle (fun d _ => hnone d) hflag (by simp [hst]) (by simp) (by simp [hst])
      | false =>
          have hcf := hs.failures hst
          simp only [Bool.false_eq_true, if_false, CircuitBreaker.onFailureAt_closed hst]
          split
          · exact Coherent.settle (fun d _ => hnone d) hflag (by simp) (by simp) (by simp)
          · rename_i hlt
            refine Coherent.settle (fun d _ => hnone d) hflag (by simp [hst]) ?_ (by simp [hst])
            intro _
            simp only [UInt32.le_iff_toNat_le, UInt32.toNat_add] at hlt ⊢
            omega
  | halfOpen =>
      have hsame : (if succeeded then s.breaker.onSuccessAt now .normal
          else s.breaker.onFailureAt now .normal) = s.breaker := by
        rw [CircuitBreaker.onSuccessAt_halfOpen_normal hst,
          CircuitBreaker.onFailureAt_halfOpen_normal hst, ite_self]
      rw [hsame]
      exact hs.relabel hcn (by simp)
  | opened =>
      have hnone := hs.no_probe_of_state (by simp [hst])
      have hflag := hs.flag_of_no_probe hnone
      cases succeeded with
      | true =>
          simp only [if_true, CircuitBreaker.onSuccessAt_opened hst]
          exact hs.relabel hcn (by simp)
      | false =>
          simp only [Bool.false_eq_true, if_false, CircuitBreaker.onFailureAt_opened hst]
          exact Coherent.settle (fun d _ => hnone d) hflag (by simp) (by simp [hst]) (by simp [hst])

/-- The probe's outcome always frees the probe slot. -/
lemma Coherent.report_probe (hs : Coherent s) (hc : s.holds c = some .probe) (succeeded : Bool) :
    Coherent (s.set (if succeeded then s.breaker.onSuccessAt now .probe
      else s.breaker.onFailureAt now .probe) c none) := by
  have hst := hs.halfOpen c hc
  have hothers : ∀ d, d ≠ c → s.holds d ≠ some .probe :=
    fun d hdc hd => hdc (hs.unique d c hd hc)
  cases succeeded with
  | true =>
      have hcs := hs.successes hst
      simp only [if_true, CircuitBreaker.onSuccessAt_halfOpen_probe hst]
      split
      · exact Coherent.settle hothers rfl (by simp) (by simp) (by simp)
      · rename_i hlt
        refine Coherent.settle hothers rfl (by simp [hst]) (by simp [hst]) ?_
        intro _
        simp only [UInt32.le_iff_toNat_le, UInt32.toNat_add] at hlt ⊢
        omega
  | false =>
      simp only [Bool.false_eq_true, if_false, CircuitBreaker.onFailureAt_halfOpen_probe hst]
      exact Coherent.settle hothers rfl (by simp) (by simp) (by simp)

/-- Every event keeps the invariant, one lemma for each kind of event and admission.  Only calls
that hold an admission may report, and a guard reports once. -/
theorem Coherent.step {e : Event} (hs : Coherent s) (h : s.step e = some t) : Coherent t := by
  cases e with
  | check c now =>
      simp only [Admissions.step] at h
      split at h
      · rename_i hc
        split at h
        · rename_i hb
          cases h
          exact hs.check hc hb
        · rename_i hb
          cases h
          obtain ⟨rfl, -, -⟩ := CircuitBreaker.checkAt_error hb
          exact hs.relabel (by simp [hc]) (by simp)
      · cases h
  | release c =>
      simp only [Admissions.step] at h
      split at h
      · rename_i hc
        cases h
        exact hs.release_probe hc
      · rename_i hc
        cases h
        exact hs.relabel (by simp [hc]) (by simp)
      · cases h
  | report c now succeeded =>
      simp only [Admissions.step] at h
      split at h
      · rename_i a hc
        cases h
        cases a with
        | normal => exact hs.report_normal hc succeeded
        | probe => exact hs.report_probe hc succeeded
      · cases h

/-- The invariant holds in every state a fresh breaker can reach, under every interleaving of
admissions and reports. -/
theorem Coherent.of_reachable {cfg : BreakerConfig}
    (h : machine.Reachable (· = Admissions.init cfg) s) : Coherent s := by
  refine h.invariant ?_ ?_
  · rintro s rfl
    exact Coherent.init cfg
  · intro s e t hs hstep
    exact hs.step hstep

theorem cfg_of_reachable {cfg : BreakerConfig}
    (h : machine.Reachable (· = Admissions.init cfg) s) : s.breaker.cfg = cfg := by
  refine h.invariant (I := fun s => s.breaker.cfg = cfg) ?_ ?_
  · rintro s rfl
    rfl
  · intro s e t hs hstep
    rw [cfg_step hstep, hs]

/-! ### No wedge -/

/-- A coherent breaker whose probe nobody holds admits, an open one once it has cooled down. -/
lemma Coherent.admits (hs : Coherent s) (hnone : ∀ d, s.holds d ≠ some .probe)
    (hnow : s.breaker.state = .opened → s.breaker.cooledDown now = true) :
    ∃ b a, s.breaker.checkAt now = (b, .ok a) := by
  have hflag := hs.flag_of_no_probe hnone
  cases hst : s.breaker.state with
  | closed => exact ⟨s.breaker, .normal, by simp [CircuitBreaker.checkAt, hst]⟩
  | halfOpen =>
      refine ⟨{ s.breaker with probeInFlight := true }, .probe, ?_⟩
      simp [CircuitBreaker.checkAt, hst, hflag]
  | opened =>
      refine ⟨?_, .probe, ?_⟩
      rotate_left
      · simp only [CircuitBreaker.checkAt, hst, hnow hst, if_true]
        rfl

/-- A coherent breaker whose probe nobody holds admits at every late enough clock reading: it never
wedges. -/
theorem Coherent.eventually_admits (hs : Coherent s) (hnone : ∀ d, s.holds d ≠ some .probe) :
    ∃ t₀, ∀ now, t₀ ≤ now → ∃ b a, s.breaker.checkAt now = (b, .ok a) := by
  refine ⟨s.breaker.openedAt.getD 0 + durationFromMillis s.breaker.cfg.openMs, ?_⟩
  intro now hnow
  refine hs.admits hnone ?_
  intro hst
  obtain ⟨t, ht⟩ := Option.isSome_iff_exists.1 (hs.openedAt hst)
  rw [CircuitBreaker.cooledDown_iff]
  refine ⟨t, ht, ?_⟩
  rw [ht, Option.getD_some] at hnow
  exact Nat.le_sub_of_add_le' hnow

end Admissions

/-! ## Governed calls are a run of admissions -/

namespace Governed

variable {ρ : Type} {calls : ℕ → Call} {s t : State ρ}

/-- The breaker and the admissions whose guard a call has not dropped yet. -/
def State.admissions (s : State ρ) : Admissions where
  breaker := s.breaker
  holds c := (s.calls c).admission

/-- What a step of the calls is to the admissions: checks and dropped guards are events, and
everything else is invisible. -/
def events (s : State ρ) : Action ρ → List Admissions.Event
  | .check c now => [.check c now]
  | .dropProbeGuard c => [.release c]
  | .dropBreakerGuard c now =>
      match s.calls c with
      | .finishing guard _ _ => [.report c now guard.succeeded]
      | _ => []
  | _ => []

@[simp] lemma breaker_admissions (s : State ρ) : s.admissions.breaker = s.breaker := rfl

@[simp] lemma holds_admissions (s : State ρ) (c : ℕ) :
    s.admissions.holds c = (s.calls c).admission := rfl

lemma admissions_goto (s : State ρ) (b : CircuitBreaker) (c : ℕ) (p : Phase ρ) :
    ((s.withBreaker b).goto c p).admissions = s.admissions.set b c p.admission := by
  refine Admissions.ext rfl ?_
  funext d
  by_cases hdc : d = c
  · subst hdc
    simp
  · rw [Admissions.holds_set_ne _ _ _ hdc]
    simp [State.calls_goto_ne _ _ _ _ hdc]

/-- A move that keeps the breaker and the admission of the call is invisible. -/
lemma admissions_goto_same {c : ℕ} {p : Phase ρ} (hb : t.breaker = s.breaker)
    (hcalls : t.calls = s.calls) (hc : p.admission = (s.calls c).admission) :
    (t.goto c p).admissions = s.admissions := by
  refine Admissions.ext hb ?_
  funext d
  by_cases hdc : d = c
  · subst hdc
    simpa using hc
  · simp [State.calls_goto_ne _ _ _ _ hdc, hcalls]

/-- One step of the calls is a run of at most one admission event: a check, a release or a report.
-/
theorem step_refines {a : Action ρ} (h : (machine calls).step s a = some t) :
    Admissions.machine.run s.admissions (events s a) = some t.admissions := by
  cases moves_of_step h with
  | enter hc hb =>
      simp [events, Admissions.machine, Admissions.step, hc, hb, admissions_goto]
  | refuse hc hb =>
      simp [events, Admissions.machine, Admissions.step, hc, hb, admissions_goto]
  | pass hc hu =>
      rw [admissions_goto_same (breaker_of_checkLimit hu) rfl (by simp [hc])]
      rfl
  | throttle hc hu =>
      rw [admissions_goto_same (breaker_of_checkLimit hu) rfl (by simp [hc])]
      rfl
  | acquire hc hk =>
      rw [admissions_goto_same rfl rfl (by simp [hc])]
      rfl
  | @dropProbeGuard c admission outcome hc =>
      cases admission <;>
        simp [events, Admissions.machine, Admissions.step, hc, admissions_goto]
  | dropBreakerGuard hc =>
      simp [events, Admissions.machine, Admissions.step, hc, admissions_goto,
        BreakerGuard.drop_eq]
  | begin hc | complete hc | wake hc | leave hc | abandon hc | abandonSleep hc | dropPermit hc
  | dropBody hc =>
      rw [admissions_goto_same rfl rfl (by simp [hc])]
      rfl

/-! ## The single-probe invariant -/

/-- A slot whose breaker is fresh, before any call is polled. -/
def Fresh (cfg : BreakerConfig) (s : State ρ) : Prop :=
  ∃ upstream : UpstreamState,
    upstream.breaker = CircuitBreaker.new cfg ∧ s = State.init upstream

/-- Call `c` was admitted as the probe and still holds the guard of that admission. -/
def HoldsProbe (s : State ρ) (c : ℕ) : Prop := (s.calls c).admission = some .probe

/-- The admissions of a reachable state are reachable. -/
lemma admissions_reachable {cfg : BreakerConfig} (h : (machine calls).Reachable (Fresh cfg) s) :
    Admissions.machine.Reachable (· = Admissions.init cfg) s.admissions := by
  refine h.refines State.admissions events ?_ ?_
  · rintro s ⟨upstream, hfresh, rfl⟩
    exact Admissions.ext hfresh rfl
  · intro s a t hstep
    exact step_refines hstep

/-- In every interleaving of any calls over a fresh slot, the probe flag is set exactly while
one call holds the probe admission, that call is the only one and the breaker is then
half-open; the counters stay below their thresholds; and a breaker whose probe nobody holds
admits the next call: at every clock reading unless it is open, and from the end of its
cooldown on if it is. -/
theorem single_probe {cfg : BreakerConfig} (h : (machine calls).Reachable (Fresh cfg) s) :
    (s.breaker.probeInFlight = true ↔ ∃ c, HoldsProbe s c) ∧
    (∀ c d, HoldsProbe s c → HoldsProbe s d → c = d) ∧
    (∀ c, HoldsProbe s c → s.breaker.state = .halfOpen) ∧
    (s.breaker.state = .opened → s.breaker.openedAt.isSome) ∧
    (s.breaker.state = .closed →
      s.breaker.consecutiveFailures.toNat < max cfg.failureThreshold.toNat 1) ∧
    (s.breaker.state = .halfOpen →
      s.breaker.consecutiveSuccesses.toNat < max cfg.halfOpenSuccesses.toNat 1) ∧
    ((∀ c, ¬ HoldsProbe s c) →
      (s.breaker.state ≠ .opened → ∀ now, ∃ b a, s.breaker.checkAt now = (b, .ok a)) ∧
      ∃ t₀, ∀ now, t₀ ≤ now → ∃ b a, s.breaker.checkAt now = (b, .ok a)) := by
  have hreach := admissions_reachable h
  have hcoh := Admissions.Coherent.of_reachable hreach
  have hcfg : s.breaker.cfg = cfg := Admissions.cfg_of_reachable hreach
  refine ⟨hcoh.inFlight, hcoh.unique, hcoh.halfOpen, hcoh.openedAt, ?_, ?_, ?_⟩
  · rw [← hcfg]
    exact hcoh.failures
  · rw [← hcfg]
    exact hcoh.successes
  · intro hnone
    refine ⟨?_, hcoh.eventually_admits hnone⟩
    intro hst now
    exact hcoh.admits hnone fun hopen => absurd hopen hst

/-! ### A concrete slot -/

/-- A breaker that opens on the first failure, cools down in a millisecond and closes on one
success. -/
def hairTrigger : BreakerConfig where
  failureThreshold := 1
  openMs := 1
  halfOpenSuccesses := 1

/-- A slot with that breaker, one permit and no token bucket. -/
def tightSlot : UpstreamState where
  limiter := none
  concurrency := Concurrency.new (some 1)
  breaker := CircuitBreaker.new hairTrigger
  governance := { rateLimit := none, maxConcurrency := some 1, breaker := hairTrigger }

/-- A non-streaming call that is never retried. -/
def plainCall : Call where
  method := .passthrough
  retry := { enabled := false, maxRetries := 0, backoffMs := 0 }

/-- Call 0 fails and opens the breaker; call 1 is then admitted as the probe. -/
def reprobe : List (Action Unit) :=
  [.check 0 1, .bucket 0 ⟨true, 0⟩, .acquire 0, .begin 0, .complete 0 (.error .upstreamError),
    .dropBreakerGuard 0 2, .check 1 1000002]

theorem single_probe_reprobe :
    ∃ s : State Unit, (machine fun _ => plainCall).run (State.init tightSlot) reprobe = some s ∧
      s.breaker.probeInFlight = true ∧ ∃ c, HoldsProbe s c := by
  obtain ⟨s, hs⟩ : ∃ s, (machine fun _ => plainCall).run (State.init tightSlot) reprobe = some s :=
    ⟨_, rfl⟩
  have hfresh : Fresh hairTrigger (State.init tightSlot : State Unit) := ⟨tightSlot, rfl, rfl⟩
  have hflag : s.breaker.probeInFlight = true := by
    cases hs
    rfl
  exact ⟨s, hs, hflag, (single_probe ⟨_, reprobe, hfresh, hs⟩).1.1 hflag⟩

end Governed

end Moaray
