import Moaray.Gateway.Admissions

/-!
# Half-open recovery of a governed slot

What the guards of the calls carry, and what that does to a breaker that is half-open.

* `Honest` — a guard carries no outcome while its call is in flight, and afterwards the verdict on
  the result of the last attempt; `honest_of_reachable`.
* `Moves.enters_halfOpen`, `Moves.progress`, `Moves.closes` — how half-open progress starts, grows
  and ends: by probe successes only.

Progress is the breaker's count of successes while it is half-open.  A step either leaves state and
count alone, advances the count, completes it, or ends the half-open state with a failure; and it
does the second and the third only when it drops the guard of a probe that carries a success.

**Design.**  The lemmas are about one step, with the states on both sides of it.  What a whole run
makes of them depends on what a probe's success rests on, and that differs between adapters; so the
counting along a run is left to the modules that know one.
-/

namespace Moaray

open Framework

namespace Governed

variable {ρ : Type} {calls : ℕ → Call} {s t : State ρ} {a : Action ρ}

/-! ## What a guard carries -/

/-- A call in flight or cancelled has no outcome to report, a finished one its verdict. -/
def Honest : Phase ρ → Prop
  | .admitted guard _ _ | .attempting guard _ _ | .sleeping guard _ _ _ => guard.action = none
  | .finishing guard _ none => guard.action = none
  | .finishing guard _ (some result) => guard.action = some (verdict result)
  | _ => True

lemma honest_afterGuard (c : Call) (permit : Bool) (outcome : Option (Except Error ρ)) :
    Honest (afterGuard c permit outcome) := by
  unfold afterGuard
  split
  · split <;> trivial
  · trivial

lemma honest_resume {c : Call} {guard : BreakerGuard} {permit : Bool} {attempt : UInt32}
    {result : Except Error ρ} (h : guard.action = none) :
    Honest (resume c guard permit attempt result) := by
  rcases resume_cases c guard permit attempt result with ⟨-, -, delayMs, hsleep⟩ | ⟨-, hfinal⟩
  · rw [hsleep]
    exact h
  · rw [hfinal]
    rfl

lemma Moves.honest (h : Moves calls s a t) (hs : ∀ c, Honest (s.calls c)) (c : ℕ) :
    Honest (t.calls c) := by
  by_cases hca : c = a.call
  · subst hca
    have hself := hs a.call
    cases h with
    | acquire hc hk =>
        simp only [Action.call, State.calls_goto_self]
        rfl
    | begin hc | wake hc | abandon hc | abandonSleep hc =>
        simp only [Action.call, State.calls_goto_self] at hself ⊢
        rwa [hc] at hself
    | complete hc =>
        simp only [Action.call, State.calls_goto_self] at hself ⊢
        rw [hc] at hself
        exact honest_resume hself
    | dropBreakerGuard hc =>
        simp only [Action.call, State.calls_goto_self]
        exact honest_afterGuard _ _ _
    | _ =>
        simp only [Action.call, State.calls_goto_self]
        trivial
  · rw [h.calls_of_ne hca]
    exact hs c

/-- Every guard of every reachable state is honest: what it will report is what its call has come
to. -/
theorem honest_of_reachable {cfg : BreakerConfig} (h : (machine calls).Reachable (Fresh cfg) s)
    (c : ℕ) : Honest (s.calls c) := by
  refine Machine.Reachable.invariant (I := fun s => ∀ c, Honest (s.calls c)) h ?_ ?_ c
  · rintro s ⟨upstream, -, rfl⟩ c
    trivial
  · intro s a t hs hstep
    exact (moves_of_step hstep).honest hs

/-- A call comes to its end with a result only by completing an attempt with it. -/
lemma Moves.finished {c : ℕ} {guard : BreakerGuard} {permit : Bool} {result : Except Error ρ}
    (h : Moves calls s a t) (ht : t.calls c = .finishing guard permit (some result)) :
    s.calls c = .finishing guard permit (some result) ∨ a = .complete c result := by
  by_cases hca : c = a.call
  · subst hca
    cases h with
    | @complete c result' guard' permit' attempt hc =>
        right
        simp only [Action.call, State.calls_goto_self] at ht ⊢
        rcases resume_cases (calls c) guard' permit' attempt result' with ⟨-, -, delayMs, h⟩ | ⟨-, h⟩
        · rw [h] at ht
          cases ht
        · rw [h] at ht
          cases ht
          rfl
    | dropBreakerGuard hc =>
        simp only [Action.call, State.calls_goto_self, afterGuard] at ht
        split at ht
        · split at ht <;> cases ht
        · cases ht
    | _ =>
        simp only [Action.call, State.calls_goto_self] at ht
        cases ht
  · left
    rwa [h.calls_of_ne hca] at ht

lemma Moves.attempting {c : ℕ} {result : Except Error ρ}
    (h : Moves calls s (.complete c result) t) :
    ∃ guard permit attempt, s.calls c = .attempting guard permit attempt := by
  cases h with
  | complete hc => exact ⟨_, _, _, hc⟩

/-! ## Half-open progress -/

/-- The step is the report of a probe's success. -/
def probeSuccess (s : State ρ) : Action ρ → Bool
  | .dropBreakerGuard c _ =>
      match s.calls c with
      | .finishing guard _ _ => decide (guard.admission = .probe) && guard.succeeded
      | _ => false
  | _ => false

/-- The half-open state is entered only by a check of an open breaker, with no progress yet. -/
lemma Moves.enters_halfOpen (h : Moves calls s a t) (hs : s.breaker.state ≠ .halfOpen)
    (ht : t.breaker.state = .halfOpen) :
    ∃ c now, a = .check c now ∧ s.breaker.state = .opened ∧
      t.breaker.consecutiveSuccesses = 0 := by
  rcases h.breaker_cases with ⟨hb, -⟩ | ⟨c, now, admission, rfl, hb⟩ |
    ⟨c, admission, outcome, -, -, hb⟩ | ⟨c, now, guard, permit, outcome, rfl, hc, hb⟩
  · rw [hb] at ht
    exact absurd ht hs
  · rcases CircuitBreaker.checkAt_ok hb with ⟨hst, -, heq⟩ | ⟨hst, -⟩ | ⟨hst, -, -, heq⟩
    · rw [heq, hst] at ht
      cases ht
    · exact absurd hst hs
    · refine ⟨c, now, rfl, hst, ?_⟩
      rw [heq]
  · rw [hb, ProbeReleaseGuard.state_drop] at ht
    exact absurd ht hs
  · refine absurd ht ?_
    rw [hb, BreakerGuard.drop_eq]
    cases hst : s.breaker.state with
    | halfOpen => exact absurd hst hs
    | closed =>
        split
        · simp [CircuitBreaker.onSuccessAt_closed hst, hst]
        · rw [CircuitBreaker.onFailureAt_closed hst]
          split <;> simp [hst]
    | opened =>
        split
        · simp [CircuitBreaker.onSuccessAt_opened hst, hst]
        · simp [CircuitBreaker.onFailureAt_opened hst, hst]

lemma drop_halfOpen (guard : BreakerGuard) {b : CircuitBreaker} (now : Instant)
    (hst : b.state = .halfOpen) :
    (guard.admission = .probe ∧ guard.succeeded = true ∧
      guard.drop now b = b.onSuccessAt now .probe) ∨
    (decide (guard.admission = .probe) && guard.succeeded) = false ∧
      ((guard.drop now b).state = .opened ∨ guard.drop now b = b) := by
  rw [BreakerGuard.drop_eq]
  cases hadm : guard.admission with
  | normal =>
      right
      refine ⟨by simp, .inr ?_⟩
      rw [CircuitBreaker.onSuccessAt_halfOpen_normal hst,
        CircuitBreaker.onFailureAt_halfOpen_normal hst, ite_self]
  | probe =>
      cases hsucc : guard.succeeded with
      | true =>
          left
          exact ⟨rfl, rfl, rfl⟩
      | false =>
          right
          refine ⟨by simp, .inl ?_⟩
          rw [if_neg Bool.false_ne_true, CircuitBreaker.onFailureAt_halfOpen_probe hst]

/-- What a step does to a half-open breaker's state and progress: a probe success advances or
closes it, and any other step leaves the progress or the state. -/
lemma Moves.halfOpen_cases (h : Moves calls s a t) (hs : s.breaker.state = .halfOpen) :
    (probeSuccess s a = true ∧ ∃ now, t.breaker = s.breaker.onSuccessAt now .probe) ∨
    (probeSuccess s a = false ∧ (t.breaker.state = .opened ∨ t.breaker.state = .halfOpen ∧
      t.breaker.consecutiveSuccesses = s.breaker.consecutiveSuccesses)) := by
  rcases h.breaker_cases with ⟨hb, ha⟩ | ⟨c, now, admission, rfl, hb⟩ |
    ⟨c, admission, outcome, rfl, -, hb⟩ | ⟨c, now, guard, permit, outcome, rfl, hc, hb⟩
  · right
    refine ⟨?_, .inr ⟨by rw [hb, hs], by rw [hb]⟩⟩
    cases a with
    | dropBreakerGuard c now => exact absurd rfl (ha c now)
    | _ => rfl
  · right
    refine ⟨rfl, .inr ?_⟩
    rcases CircuitBreaker.checkAt_ok hb with ⟨hst, -⟩ | ⟨hst, -, -, heq⟩ | ⟨hst, -⟩
    · rw [hs] at hst
      cases hst
    · rw [heq]
      exact ⟨hst, rfl⟩
    · rw [hs] at hst
      cases hst
  · right
    refine ⟨rfl, .inr ⟨by rw [hb, ProbeReleaseGuard.state_drop, hs], ?_⟩⟩
    rw [hb, ProbeReleaseGuard.successes_drop]
  · have hreport : probeSuccess s (.dropBreakerGuard c now) =
        (decide (guard.admission = .probe) && guard.succeeded) := by
      simp [probeSuccess, hc]
    rw [hreport]
    rcases drop_halfOpen guard now hs with ⟨hadm, hsucc, hdrop⟩ | ⟨hno, hdrop⟩
    · left
      exact ⟨by simp [hadm, hsucc], now, by rw [hb, hdrop]⟩
    · right
      refine ⟨hno, ?_⟩
      rcases hdrop with hopen | hsame
      · left
        rw [hb, hopen]
      · right
        rw [hb, hsame]
        exact ⟨hs, rfl⟩

/-- A half-open breaker that stays half-open counts exactly the probe successes. -/
lemma Moves.progress (h : Moves calls s a t) (hs : s.breaker.state = .halfOpen)
    (ht : t.breaker.state = .halfOpen)
    (hcs : s.breaker.consecutiveSuccesses.toNat < max s.breaker.cfg.halfOpenSuccesses.toNat 1) :
    t.breaker.consecutiveSuccesses.toNat =
      s.breaker.consecutiveSuccesses.toNat + (probeSuccess s a).toNat := by
  rcases h.halfOpen_cases hs with ⟨hp, now, hb⟩ | ⟨hp, hopen | ⟨-, hsame⟩⟩
  · rw [CircuitBreaker.onSuccessAt_halfOpen_probe hs] at hb
    split at hb
    · rw [hb] at ht
      cases ht
    · rename_i hlt
      rw [hb, hp]
      have hmax := s.breaker.cfg.halfOpenSuccesses.toNat_lt
      simp only [UInt32.le_iff_toNat_le, UInt32.toNat_add, UInt32.toNat_one,
        Bool.toNat_true] at hlt ⊢
      omega
  · rw [hopen] at ht
    cases ht
  · rw [hsame, hp]
    rfl

/-- A half-open breaker closes only by the probe success that completes the required number. -/
lemma Moves.closes (h : Moves calls s a t) (hs : s.breaker.state = .halfOpen)
    (ht : t.breaker.state = .closed)
    (hcs : s.breaker.consecutiveSuccesses.toNat < max s.breaker.cfg.halfOpenSuccesses.toNat 1) :
    probeSuccess s a = true ∧
      max s.breaker.cfg.halfOpenSuccesses.toNat 1 = s.breaker.consecutiveSuccesses.toNat + 1 := by
  rcases h.halfOpen_cases hs with ⟨hp, now, hb⟩ | ⟨hp, hopen | ⟨hhalf, -⟩⟩
  · refine ⟨hp, ?_⟩
    rw [CircuitBreaker.onSuccessAt_halfOpen_probe hs] at hb
    split at hb
    · rename_i hle
      have hmax := s.breaker.cfg.halfOpenSuccesses.toNat_lt
      simp only [UInt32.le_iff_toNat_le, UInt32.toNat_add, UInt32.toNat_one] at hle
      omega
    · rw [hb, hs] at ht
      cases ht
  · rw [hopen] at ht
    cases ht
  · rw [hhalf] at ht
    cases ht

end Governed

end Moaray
