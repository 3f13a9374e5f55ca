import Moaray.Gateway.Admissions

/-!
# The cooldown of an open breaker

The module documentation promises that an open breaker fails fast until `open_ms` elapses. The
instant it measures from is `opened_at`, which a failure that comes home while the breaker is open
writes again (the success of such a straggler is ignored).  So a run of the admission system is cut
at its last entry into `opened`.

* `lastFailure`, `openedAt_run` — what `opened_at` holds after the rest of the run.
* `Admissions.admits_probe_iff` — the gate in terms of it.
* `cooldown_from_trip_iff` — when the gate measures from the trip.
* `straggler_extends_cooldown` — a straggler that starts the cooldown anew.

Calls that were admitted before the trip are still in flight when the breaker opens, as many as the
cap allows, and each of them may fail at its own time.  With non-decreasing clock readings the last
failure is the latest, so the gate is later than the documented one by the time between the trip
and the last straggler, and by nothing else.

**Design.**  The statement is about runs of the admission system, where reports carry their clock
readings; governed calls are among these runs.  `exists_entry` is what cuts a run at its last entry
into the open state.
-/

namespace Moaray

open Framework

/-! ## Entering the open state -/

namespace CircuitBreaker

variable {b b' : CircuitBreaker} {now : Instant} {a : Admission}

lemma not_opened_checkAt (now : Instant) (h : b.state ≠ .opened) :
    (b.checkAt now).1.state ≠ .opened := by
  unfold checkAt
  cases hs : b.state with
  | closed => simp [hs]
  | halfOpen => by_cases hp : b.probeInFlight <;> simp [hs, hp]
  | opened => exact absurd hs h

lemma not_opened_onSuccessAt (now : Instant) (h : b.state ≠ .opened) :
    (b.onSuccessAt now a).state ≠ .opened := by
  cases hs : b.state with
  | closed => simp [onSuccessAt_closed hs, hs]
  | halfOpen =>
      cases a with
      | normal => simp [onSuccessAt_halfOpen_normal hs, hs]
      | probe =>
          rw [onSuccessAt_halfOpen_probe hs]
          split <;> simp [hs]
  | opened => exact absurd hs h

/-- A failure that opens a breaker stamps the trip with its own clock reading. -/
lemma openedAt_onFailureAt (h : (b.onFailureAt now a).state = .opened) :
    (b.onFailureAt now a).openedAt = some now := by
  cases hs : b.state with
  | closed =>
      rw [onFailureAt_closed hs] at h ⊢
      split at h
      · rename_i hle
        rw [if_pos hle]
      · simp [hs] at h
  | halfOpen =>
      cases a with
      | normal =>
          rw [onFailureAt_halfOpen_normal hs, hs] at h
          cases h
      | probe => rw [onFailureAt_halfOpen_probe hs]
  | opened => rw [onFailureAt_opened hs]

/-- An open breaker admits the probe exactly when its cooldown is over. -/
lemma admits_probe_iff {t : Instant} (hs : b.state = .opened) (ht : b.openedAt = some t) :
    (∃ b', b.checkAt now = (b', .ok .probe)) ↔ durationFromMillis b.cfg.openMs ≤ now - t := by
  have hcool : b.cooledDown now = true ↔ durationFromMillis b.cfg.openMs ≤ now - t := by
    rw [cooledDown_iff, ht]
    simp
  rw [← hcool]
  simp only [checkAt, hs]
  split <;> simp_all

end CircuitBreaker

namespace Admissions

variable {s t u v : Admissions} {e : Event} {es : List Event} {now t₀ : Instant}

/-- The clock reading an event is taken at.  Giving a probe back reads no clock. -/
def Event.reading : Event → Option Instant
  | .check _ now => some now
  | .release _ => none
  | .report _ now _ => some now

/-- The clock readings of a run are non-decreasing, and `now` is not before the last. -/
def Clocked (es : List Event) (now : Instant) : Prop :=
  (es.filterMap Event.reading ++ [now]).Pairwise (· ≤ ·)

instance (es : List Event) (now : Instant) : Decidable (Clocked es now) :=
  inferInstanceAs (Decidable (List.Pairwise _ _))

/-- The clock reading of the last failure reported in `es`, or `t₀` when there is none. -/
def lastFailure (t₀ : Instant) : List Event → Instant
  | [] => t₀
  | .report _ now false :: es => lastFailure now es
  | _ :: es => lastFailure t₀ es

/-- Only a reported failure opens the breaker, and it stamps the trip. -/
lemma opened_by_failure (hs : s.breaker.state ≠ .opened) (h : s.step e = some t)
    (ht : t.breaker.state = .opened) :
    ∃ c now, e = .report c now false ∧ t.breaker.openedAt = some now := by
  cases e with
  | check c now =>
      have hno := CircuitBreaker.not_opened_checkAt now hs
      simp only [step] at h
      split at h
      · split at h
        all_goals
          rename_i hb
          cases h
          rw [hb] at hno
          exact absurd ht hno
      · cases h
  | release c =>
      simp only [step] at h
      split at h
      · cases h
        exact absurd ht (by simpa using hs)
      · cases h
        exact absurd ht hs
      · cases h
  | report c now succeeded =>
      simp only [step] at h
      split at h
      · cases h
        cases succeeded with
        | true => exact absurd ht (CircuitBreaker.not_opened_onSuccessAt now hs)
        | false => exact ⟨c, now, rfl, CircuitBreaker.openedAt_onFailureAt ht⟩
      · cases h

/-- While the breaker stays open, only failures write `opened_at`. -/
lemma openedAt_step (hs : s.breaker.state = .opened) (h : s.step e = some t)
    (ht : t.breaker.state = .opened) (hat : s.breaker.openedAt = some t₀) :
    t.breaker.openedAt = some (lastFailure t₀ [e]) := by
  cases e with
  | check c now =>
      simp only [step] at h
      split at h
      · split at h
        · rename_i hb
          cases h
          -- A check the open breaker admits leaves the open state.
          rcases CircuitBreaker.checkAt_ok hb with ⟨hc, -⟩ | ⟨hc, -⟩ | ⟨-, -, -, rfl⟩
          · rw [hs] at hc
            cases hc
          · rw [hs] at hc
            cases hc
          · cases ht
        · rename_i hb
          cases h
          obtain ⟨rfl, -, -⟩ := CircuitBreaker.checkAt_error hb
          exact hat
      · cases h
  | release c =>
      simp only [step] at h
      split at h
      · cases h
        simpa [lastFailure, CircuitBreaker.releaseProbe, hs] using hat
      · cases h
        exact hat
      · cases h
  | report c now succeeded =>
      simp only [step] at h
      split at h
      · cases h
        cases succeeded with
        | true => simpa [lastFailure, CircuitBreaker.onSuccessAt_opened hs] using hat
        | false => exact CircuitBreaker.openedAt_onFailureAt ht
      · cases h

lemma lastFailure_cons (t₀ : Instant) (e : Event) (es : List Event) :
    lastFailure t₀ (e :: es) = lastFailure (lastFailure t₀ [e]) es := by
  cases e with
  | report c now succeeded => cases succeeded <;> rfl
  | _ => rfl

/-- After a run spent in the open state, `opened_at` is its last failure. -/
lemma openedAt_run (hstay : machine.StaysIn (fun s => s.breaker.state = .opened) s es)
    (h : machine.run s es = some t) (hat : s.breaker.openedAt = some t₀) :
    t.breaker.openedAt = some (lastFailure t₀ es) := by
  induction es generalizing s t₀ with
  | nil =>
      obtain rfl : s = t := by simpa using h
      exact hat
  | cons e es ih =>
      obtain ⟨u, hu, hrest⟩ := machine.run_cons_eq_some.1 h
      obtain ⟨hs, hopen⟩ := hstay.of_takes (Machine.Takes.head hu es)
      rw [lastFailure_cons]
      exact ih (hstay.tail hu) hrest (openedAt_step hs hu hopen hat)

/-! ## The cooldown over a run -/

/-- A cooldown measured from the last failure is over exactly when it is over measured from the
trip and from every failure since. -/
lemma le_sub_lastFailure_iff {d : ℕ} (h : (t₀ :: es.filterMap Event.reading).Pairwise (· ≤ ·)) :
    d ≤ now - lastFailure t₀ es ↔
      d ≤ now - t₀ ∧ ∀ c tl, .report c tl false ∈ es → d ≤ now - tl := by
  induction es generalizing t₀ with
  | nil => simp [lastFailure]
  | cons e es ih =>
      -- An event that is no failure leaves `t₀` as the last failure so far.
      have hskip : (∀ c tl, e ≠ .report c tl false) → lastFailure t₀ (e :: es) = lastFailure t₀ es →
          (d ≤ now - lastFailure t₀ (e :: es) ↔
            d ≤ now - t₀ ∧ ∀ c tl, .report c tl false ∈ e :: es → d ≤ now - tl) := by
        intro hne hlast
        have hrest : (t₀ :: es.filterMap Event.reading).Pairwise (· ≤ ·) := by
          refine h.sublist (List.Sublist.cons_cons t₀ ?_)
          exact (List.sublist_cons_self e es).filterMap _
        rw [hlast, ih hrest]
        simp only [List.mem_cons]
        constructor
        · rintro ⟨h₀, hall⟩
          refine ⟨h₀, fun c tl hmem => ?_⟩
          rcases hmem with heq | hmem
          · exact absurd heq.symm (hne c tl)
          · exact hall c tl hmem
        · rintro ⟨h₀, hall⟩
          exact ⟨h₀, fun c tl hmem => hall c tl (Or.inr hmem)⟩
      cases e with
      | check c r => exact hskip (by simp) rfl
      | release c => exact hskip (by simp) rfl
      | report c r succeeded =>
          cases succeeded with
          | true => exact hskip (by simp) rfl
          | false =>
              have hle : t₀ ≤ r := List.rel_of_pairwise_cons h (by simp [Event.reading])
              have hlast : lastFailure t₀ (.report c r false :: es) = lastFailure r es := rfl
              rw [hlast, ih h.of_cons]
              simp only [List.mem_cons]
              constructor
              · rintro ⟨hr, hall⟩
                refine ⟨hr.trans (Nat.sub_le_sub_left hle now), fun c' tl hmem => ?_⟩
                rcases hmem with heq | hmem
                · cases heq
                  exact hr
                · exact hall c' tl hmem
              · rintro ⟨-, hall⟩
                exact ⟨hall c r (Or.inl rfl), fun c' tl hmem => hall c' tl (Or.inr hmem)⟩

/-- A run cut at its last entry into the open state: the trip is a reported failure, and the gate
admits the probe when the cooldown is over counted from it and from every failure since. -/
lemma admits_probe_iff {cfg : BreakerConfig} {pre mid : List Event}
    (hpre : machine.run (init cfg) pre = some u) (hu : u.breaker.state ≠ .opened)
    (he : machine.step u e = some v) (hmid : machine.run v mid = some t)
    (hstay : machine.StaysIn (fun s => s.breaker.state = .opened) v mid)
    (hclock : Clocked (pre ++ e :: mid) now) :
    ∃ c t₀, e = .report c t₀ false ∧ t₀ ≤ now ∧
      ((∃ b, t.breaker.checkAt now = (b, .ok .probe)) ↔
        durationFromMillis cfg.openMs ≤ now - t₀ ∧
          ∀ d tl, .report d tl false ∈ mid → durationFromMillis cfg.openMs ≤ now - tl) := by
  have hv : v.breaker.state = .opened := hstay [] v (List.nil_prefix) rfl
  have ht : t.breaker.state = .opened := hstay mid t (List.prefix_refl mid) hmid
  obtain ⟨c, t₀, rfl, hat⟩ := opened_by_failure hu he hv
  have hreach : machine.Reachable (· = init cfg) t := by
    refine ⟨init cfg, pre ++ .report c t₀ false :: mid, rfl, ?_⟩
    exact machine.run_append_eq_some.2 ⟨u, hpre, machine.run_cons_eq_some.2 ⟨v, he, hmid⟩⟩
  have hcfg : t.breaker.cfg = cfg := cfg_of_reachable hreach
  have hlast : (t₀ :: (mid.filterMap Event.reading ++ [now])).Pairwise (· ≤ ·) := by
    unfold Clocked at hclock
    rw [List.filterMap_append, List.append_assoc] at hclock
    simpa [List.filterMap_cons, Event.reading] using (List.pairwise_append.1 hclock).2.1
  have hnow : t₀ ≤ now := List.rel_of_pairwise_cons hlast (by simp)
  have hreads : (t₀ :: mid.filterMap Event.reading).Pairwise (· ≤ ·) :=
    hlast.sublist (List.Sublist.cons_cons t₀ (List.sublist_append_left ..))
  refine ⟨c, t₀, rfl, hnow, ?_⟩
  rw [CircuitBreaker.admits_probe_iff ht (openedAt_run hstay hmid hat), hcfg]
  exact le_sub_lastFailure_iff hreads

/-- In every run of a breaker with non-decreasing clock readings, the gate of a breaker that is
still open measures `open_ms` from the trip at `t₀` exactly when the cooldown is not over yet or
no failure of a call admitted before the trip came home within the last `open_ms`. -/
theorem cooldown_from_trip_iff {cfg : BreakerConfig} {pre mid : List Event}
    (hpre : machine.run (init cfg) pre = some u) (hu : u.breaker.state ≠ .opened)
    (he : machine.step u e = some v) (hmid : machine.run v mid = some t)
    (hstay : machine.StaysIn (fun s => s.breaker.state = .opened) v mid)
    (hclock : Clocked (pre ++ e :: mid) now) :
    ∃ c t₀, e = .report c t₀ false ∧ t₀ ≤ now ∧
      (((∃ b, t.breaker.checkAt now = (b, .ok .probe)) ↔
          durationFromMillis cfg.openMs ≤ now - t₀) ↔
        now - t₀ < durationFromMillis cfg.openMs ∨
          ∀ d tl, .report d tl false ∈ mid → durationFromMillis cfg.openMs ≤ now - tl) := by
  obtain ⟨c, t₀, heq, hnow, hgate⟩ := admits_probe_iff hpre hu he hmid hstay hclock
  refine ⟨c, t₀, heq, hnow, ?_⟩
  rw [hgate]
  constructor
  · intro h
    by_cases hover : durationFromMillis cfg.openMs ≤ now - t₀
    · exact Or.inr (h.2 hover).2
    · exact Or.inl (Nat.not_le.1 hover)
  · rintro (hearly | hquiet)
    · exact ⟨fun h => h.1, fun h => absurd h (Nat.not_le.2 hearly)⟩
    · exact ⟨fun h => h.1, fun h => ⟨h, hquiet⟩⟩

/-! ### A straggler -/

/-- Two calls pass a closed breaker at once. -/
def admittedTogether : List Event := [.check 0 0, .check 1 0]

/-- The first of them fails at time 0 and trips the breaker of `Governed.hairTrigger`; the second
fails 0.9 ms later. -/
lemma straggler_run :
    ∃ u v t, machine.run (init Governed.hairTrigger) admittedTogether = some u ∧
      u.breaker.state ≠ .opened ∧ machine.step u (.report 0 0 false) = some v ∧
      machine.run v [.report 1 900000 false] = some t ∧
      machine.StaysIn (fun s => s.breaker.state = .opened) v [.report 1 900000 false] ∧
      t.breaker.openedAt = some 900000 := by
  obtain ⟨u, hu⟩ : ∃ u, machine.run (init Governed.hairTrigger) admittedTogether = some u :=
    ⟨_, rfl⟩
  obtain ⟨v, hv⟩ : ∃ v, machine.step u (.report 0 0 false) = some v := by
    cases hu
    exact ⟨_, rfl⟩
  obtain ⟨t, ht⟩ : ∃ t, machine.run v [.report 1 900000 false] = some t := by
    cases hu
    cases hv
    exact ⟨_, rfl⟩
  refine ⟨u, v, t, hu, ?_, hv, ht, ?_, ?_⟩
  · cases hu
    simp [set, init, CircuitBreaker.new]
  · have hopen : v.breaker.state = .opened := by
      cases hu
      cases hv
      rfl
    have hstill : t.breaker.state = .opened := by
      cases hu
      cases hv
      cases ht
      rfl
    have hnil : machine.StaysIn (fun s => s.breaker.state = .opened) v [] := .nil hopen
    exact hnil.concat ht hstill
  · cases hu
    cases hv
    cases ht
    rfl

/-- At 2 ms the last failure is more than the cooldown of one millisecond ago: the gate agrees
with the trip. -/
theorem cooldown_from_trip_iff_straggler :
    ∃ t, machine.run (init Governed.hairTrigger)
        (admittedTogether ++ [.report 0 0 false, .report 1 900000 false]) = some t ∧
      ((∃ b, t.breaker.checkAt 2000000 = (b, .ok .probe)) ↔
        durationFromMillis Governed.hairTrigger.openMs ≤ 2000000 - 0) := by
  obtain ⟨u, v, t, hu, hclosed, hv, ht, hstay, -⟩ := straggler_run
  have hclock : Clocked (admittedTogether ++ [.report 0 0 false, .report 1 900000 false]) 2000000 :=
    by decide
  obtain ⟨c, t₀, heq, -, hiff⟩ := cooldown_from_trip_iff hu hclosed hv ht hstay hclock
  cases heq
  refine ⟨t, machine.run_append_eq_some.2 ⟨u, hu, machine.run_cons_eq_some.2 ⟨v, hv, ht⟩⟩, ?_⟩
  refine hiff.2 (Or.inr ?_)
  intro d tl hmem
  simp only [List.mem_singleton, Event.report.injEq] at hmem
  rw [hmem.2.1]
  decide

/-- At 1 ms the cooldown that began at 0 is over, and the probe is refused: the failure of the
call admitted before the trip has started the cooldown anew. -/
theorem straggler_extends_cooldown :
    ∃ u v t, machine.run (init Governed.hairTrigger) admittedTogether = some u ∧
      u.breaker.state ≠ .opened ∧ machine.step u (.report 0 0 false) = some v ∧
      machine.run v [.report 1 900000 false] = some t ∧
      machine.StaysIn (fun s => s.breaker.state = .opened) v [.report 1 900000 false] ∧
      Clocked (admittedTogether ++ [.report 0 0 false, .report 1 900000 false]) 1000000 ∧
      ¬ ((∃ b, t.breaker.checkAt 1000000 = (b, .ok .probe)) ↔
        durationFromMillis Governed.hairTrigger.openMs ≤ 1000000 - 0) := by
  obtain ⟨u, v, t, hu, hclosed, hv, ht, hstay, hat⟩ := straggler_run
  refine ⟨u, v, t, hu, hclosed, hv, ht, hstay, by decide, ?_⟩
  have hopen : t.breaker.state = .opened := hstay _ t (List.prefix_refl _) ht
  have hcfg : t.breaker.cfg = Governed.hairTrigger := by
    refine cfg_of_reachable ⟨init Governed.hairTrigger, admittedTogether ++
      [.report 0 0 false, .report 1 900000 false], rfl, ?_⟩
    exact machine.run_append_eq_some.2 ⟨u, hu, machine.run_cons_eq_some.2 ⟨v, hv, ht⟩⟩
  rw [CircuitBreaker.admits_probe_iff hopen hat, hcfg]
  decide

end Admissions

end Moaray
