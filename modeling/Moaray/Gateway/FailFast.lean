import Moaray.Gateway.Admissions

/-!
# Fail-fast: under which admission an upstream attempt begins

The breaker is asked once for each call, before the permit wait and before all retries.  So an
attempt that begins is not re-checked: it runs under what its call was granted.

* `normal_checked_closed` — a call admitted as normal was checked while the breaker was closed, and
  this was its only check.
* `tripped_since` — if the breaker is no longer closed, a failure or an abandoned call reported
  after that check has tripped it.
* `attempts_begin_admitted` — both, and that the probe's attempts begin half-open, for every
  attempt of every interleaving.
* `parked_call_begins_open` — the run in which a call parked on the semaphore reaches an upstream
  whose breaker has opened since.

Between its check and its first attempt a call may wait for a permit for any length of time, and
between two attempts it sleeps; other calls report meanwhile.  Which of them tripped the breaker
can be named: the run has a step that left the closed state, and the only such step is the report
of a failure.

**Design.**  That a call has only one check is a matter of its phase: a check is enabled when the
call is idle, and no step leads back there (`polled_of_run`).
-/

namespace Moaray

open Framework

namespace Governed

variable {ρ : Type} {calls : ℕ → Call} {s t u v : State ρ}

/-! ## One step -/

/-- A call comes to hold a normal admission only by its own check of a closed breaker. -/
lemma Moves.normal_gained {a : Action ρ} {c : ℕ} (h : Moves calls s a t)
    (ht : (t.calls c).admission = some .normal) :
    (s.calls c).admission = some .normal ∨
      ∃ now, a = .check c now ∧ s.breaker.state = .closed ∧ t.breaker.state = .closed := by
  by_cases hca : c = a.call
  · subst hca
    cases h with
    | @enter c now b admission hc hb =>
        right
        obtain rfl : admission = .normal := by simpa [Action.call] using ht
        rcases CircuitBreaker.checkAt_ok hb with ⟨hst, -, rfl⟩ | ⟨-, -, h, -⟩ | ⟨-, -, h, -⟩
        · exact ⟨now, rfl, hst, hst⟩
        · cases h
        · cases h
    | _ =>
        left
        simp_all [Action.call]
  · left
    rwa [h.calls_of_ne hca] at ht

/-- A closed breaker leaves that state only by the report of a call that failed or was
abandoned, and it opens. -/
lemma Moves.trips {a : Action ρ} (h : Moves calls s a t) (hs : s.breaker.state = .closed)
    (ht : t.breaker.state ≠ .closed) :
    ∃ d now guard permit outcome, a = .dropBreakerGuard d now ∧
      s.calls d = .finishing guard permit outcome ∧ guard.succeeded = false ∧
      t.breaker.state = .opened := by
  rcases h.breaker_cases with ⟨hb, -⟩ | ⟨c, now, admission, -, hb⟩ |
    ⟨c, admission, outcome, -, -, hb⟩ | ⟨c, now, guard, permit, outcome, rfl, hc, hb⟩
  · rw [hb] at ht
    exact absurd hs ht
  · rcases CircuitBreaker.checkAt_ok hb with ⟨-, -, heq⟩ | ⟨hst, -⟩ | ⟨hst, -⟩
    · rw [heq] at ht
      exact absurd hs ht
    · simp [hst] at hs
    · simp [hst] at hs
  · rw [hb, ProbeReleaseGuard.state_drop] at ht
    exact absurd hs ht
  · refine ⟨c, now, guard, permit, outcome, rfl, hc, ?_⟩
    rw [BreakerGuard.drop_eq] at hb
    cases hsucc : guard.succeeded with
    | true =>
        refine absurd ?_ ht
        rw [hb, hsucc, if_pos rfl, CircuitBreaker.onSuccessAt_closed hs]
        exact hs
    | false =>
        refine ⟨rfl, ?_⟩
        rw [hsucc, if_neg Bool.false_ne_true, CircuitBreaker.onFailureAt_closed hs] at hb
        rw [hb] at ht ⊢
        split at ht
        · rename_i hle
          rw [if_pos hle]
        · exact absurd hs ht

/-! ## Runs -/

lemma polled_of_run {as : List (Action ρ)} (h : (machine calls).run s as = some t) {c : ℕ}
    (hc : s.calls c ≠ .idle) : t.calls c ≠ .idle := by
  refine (machine calls).invariant_of_run (I := fun s => s.calls c ≠ .idle) ?_ hc h
  intro s a t hs hstep
  have hmoves := moves_of_step hstep
  by_cases hca : c = a.call
  · rw [hca]
    exact hmoves.polled
  · rwa [hmoves.calls_of_ne hca]

lemma idle_of_check {c : ℕ} {now : Instant} (h : (machine calls).step s (.check c now) = some t) :
    s.calls c = .idle := by
  cases moves_of_step h with
  | enter hc => exact hc
  | refuse hc => exact hc

/-- A call that has been polled is not checked again. -/
lemma no_check_after {as : List (Action ρ)} (h : (machine calls).run s as = some t) {c : ℕ}
    (hc : s.calls c ≠ .idle) (now : Instant) : Action.check c now ∉ as := by
  intro hmem
  obtain ⟨pre, post, rfl⟩ := List.append_of_mem hmem
  obtain ⟨u, hu, hrest⟩ := (machine calls).run_append_eq_some.1 h
  obtain ⟨v, hv, -⟩ := (machine calls).run_cons_eq_some.1 hrest
  exact polled_of_run hu hc (idle_of_check hv)

lemma no_check_before {as : List (Action ρ)} (h : (machine calls).run s as = some t) {c : ℕ}
    (hc : t.calls c = .idle) (now : Instant) : Action.check c now ∉ as := by
  intro hmem
  obtain ⟨pre, post, rfl⟩ := List.append_of_mem hmem
  obtain ⟨u, -, hrest⟩ := (machine calls).run_append_eq_some.1 h
  obtain ⟨v, hv, hpost⟩ := (machine calls).run_cons_eq_some.1 hrest
  exact polled_of_run hpost (moves_of_step hv).polled hc

/-- A call that holds a normal admission was granted it by its one check, and the breaker was
closed then. -/
theorem normal_checked_closed {cfg : BreakerConfig} {as : List (Action ρ)} {c : ℕ}
    (hs : Fresh cfg s) (h : (machine calls).run s as = some t)
    (hc : (t.calls c).admission = some .normal) :
    ∃ pre now mid u v, as = pre ++ .check c now :: mid ∧
      (machine calls).run s pre = some u ∧ (machine calls).step u (.check c now) = some v ∧
      (machine calls).run v mid = some t ∧
      u.breaker.state = .closed ∧ v.breaker.state = .closed := by
  induction as using List.reverseRecOn generalizing t with
  | nil =>
      obtain rfl : s = t := by simpa using h
      obtain ⟨upstream, -, rfl⟩ := hs
      simp [State.init] at hc
  | append_singleton as a ih =>
      obtain ⟨w, hw, hstep⟩ := (machine calls).run_concat_eq_some.1 h
      rcases (moves_of_step hstep).normal_gained hc with hold | ⟨now, rfl, hclosed, hclosed'⟩
      · obtain ⟨pre, now, mid, u, v, rfl, hpre, hcheck, hmid, hu, hv⟩ := ih hw hold
        have hmid' := (machine calls).run_concat_eq_some.2 ⟨w, hmid, hstep⟩
        exact ⟨pre, now, mid ++ [a], u, v, by simp, hpre, hcheck, hmid', hu, hv⟩
      · exact ⟨as, now, [], w, t, rfl, hw, hstep, rfl, hclosed, hclosed'⟩

/-- A breaker that has left the closed state was tripped by the report of a call that failed or
was abandoned. -/
theorem tripped_since {as : List (Action ρ)} (h : (machine calls).run s as = some t)
    (hs : s.breaker.state = .closed) (ht : t.breaker.state ≠ .closed) :
    ∃ pre u d now v guard permit outcome,
      (machine calls).Takes s as pre u (.dropBreakerGuard d now) v ∧
      u.calls d = .finishing guard permit outcome ∧ guard.succeeded = false ∧
      u.breaker.state = .closed ∧ v.breaker.state = .opened := by
  obtain ⟨pre, u, a, v, htakes, hu, hv⟩ := Machine.exists_leaving
    (I := fun s : State ρ => s.breaker.state = .closed) hs h ht
  obtain ⟨d, now, guard, permit, outcome, rfl, hd, hsucc, hopen⟩ :=
    (moves_of_step htakes.step).trips hu hv
  exact ⟨pre, u, d, now, v, guard, permit, outcome, htakes, hd, hsucc, hu, hopen⟩

/-- Every attempt begins under the admission its call's one breaker check granted: the probe's
only while the breaker is half-open, and a normal call's after a check of a closed breaker,
which, if it is no longer closed, a failed or abandoned call's report has opened since. -/
theorem attempts_begin_admitted {cfg : BreakerConfig} {as pre : List (Action ρ)} {c : ℕ}
    (hs : Fresh cfg s) (h : (machine calls).Takes s as pre t (.begin c) u) :
    ∃ guard permit attempt, t.calls c = .admitted guard permit attempt ∧
      (guard.admission = .probe → t.breaker.state = .halfOpen) ∧
      (guard.admission = .normal →
        ∃ pre₁ now mid v w, pre = pre₁ ++ .check c now :: mid ∧
          (machine calls).run s pre₁ = some v ∧
          (machine calls).step v (.check c now) = some w ∧
          (∀ now', Action.check c now' ∉ pre₁ ∧ Action.check c now' ∉ mid) ∧
          v.breaker.state = .closed ∧
          (t.breaker.state ≠ .closed →
            ∃ mid₁ x d now' y guard' permit' outcome',
              (machine calls).Takes w mid mid₁ x (.dropBreakerGuard d now') y ∧
              x.calls d = .finishing guard' permit' outcome' ∧ guard'.succeeded = false ∧
              x.breaker.state = .closed ∧ y.breaker.state = .opened)) := by
  obtain ⟨post, -, hpre, hstep⟩ := h
  cases moves_of_step hstep with
  | @begin c guard permit attempt hc =>
      refine ⟨guard, permit, attempt, hc, ?_, ?_⟩
      · intro hprobe
        have hreach : (machine calls).Reachable (Fresh cfg) t := ⟨s, pre, hs, hpre⟩
        have hcoh := Admissions.Coherent.of_reachable (admissions_reachable hreach)
        exact hcoh.halfOpen c (by simp [hc, hprobe])
      · intro hnormal
        have hadm : (t.calls c).admission = some .normal := by simp [hc, hnormal]
        obtain ⟨pre₁, now, mid, v, w, rfl, hv, hcheck, hmid, hclosed, hclosed'⟩ :=
          normal_checked_closed hs hpre hadm
        refine ⟨pre₁, now, mid, v, w, rfl, hv, hcheck, ?_, hclosed, ?_⟩
        · intro now'
          exact ⟨no_check_before hv (idle_of_check hcheck) now',
            no_check_after hmid (moves_of_step hcheck).polled now'⟩
        · intro hleft
          exact tripped_since hmid hclosed' hleft

/-! ### A parked call -/

/-- Call 1 passes the breaker check and waits for the only permit; call 0 fails, opens the
breaker and returns its permit; call 1 is served. -/
def parked : List (Action Unit) :=
  [.check 0 1, .bucket 0 ⟨true, 0⟩, .acquire 0, .begin 0, .check 1 2, .bucket 1 ⟨true, 0⟩,
    .complete 0 (.error .upstreamError), .dropBreakerGuard 0 3, .dropPermit 0, .acquire 1]

/-- The parked call's attempt begins while the breaker is open, and the upstream is called all the
same. -/
theorem parked_call_begins_open :
    ∃ s t : State Unit,
      (machine fun _ => plainCall).Takes (State.init tightSlot) (parked ++ [.begin 1]) parked
        s (.begin 1) t ∧
      s.breaker.state = .opened :=
  ⟨_, _, ⟨[], rfl, rfl, rfl⟩, rfl⟩

theorem attempts_begin_admitted_parked :
    ∃ s t : State Unit,
      (machine fun _ => plainCall).Takes (State.init tightSlot) (parked ++ [.begin 1]) parked
        s (.begin 1) t ∧
      ∃ guard permit attempt, s.calls 1 = .admitted guard permit attempt ∧
        (guard.admission = .probe → s.breaker.state = .halfOpen) := by
  obtain ⟨s, t, htakes⟩ : ∃ s t, (machine fun _ => plainCall).Takes (State.init tightSlot)
      (parked ++ [.begin 1]) parked s (.begin 1) t := ⟨_, _, [], rfl, rfl, rfl⟩
  have hfresh : Fresh hairTrigger (State.init tightSlot : State Unit) := ⟨tightSlot, rfl, rfl⟩
  obtain ⟨guard, permit, attempt, hc, hprobe, -⟩ := attempts_begin_admitted hfresh htakes
  exact ⟨s, t, htakes, guard, permit, attempt, hc, hprobe⟩

end Governed

end Moaray
