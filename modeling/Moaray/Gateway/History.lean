import Moaray.Framework.Since
import Moaray.Gateway.Breaker

/-!
# The breaker trips and recovers by its history

The counters and the flag of a `CircuitBreaker` are cleared on some of its transitions and left as
they are on others.  What they amount to is said here against the reports themselves: the outcomes
since the breaker last became closed, and the probe successes since it last went from open to
half-open.

* `Tracks` — the invariant: while closed, the failure counter is the streak of failures at the end
  of the outcomes since closing, and below the threshold; while half-open, the success counter is
  the number of probe successes since opening up, and below its threshold.
* `Tracks.step`, `tracks_after` — one event, and every sequence of events.
* `FollowsHistory` — what moves the breaker, in terms of what it was told.
* `state_follows_history` — which events change the state, read off the history alone.

The events come in any order and carry any admission: a stale report of a call admitted long ago,
and a release by whoever asks for one, are among them.

**Design.**  The two histories are instances of `since`: the events after the last step that became
closed, and after the last that went from open to half-open.  They are computed from the states,
and the counters are not looked at, so `Tracks` compares two things that are defined independently.
A counter stays below its threshold because the count that reaches it moves the breaker on; with a
threshold of zero this would fail, and validation excludes it.
-/

namespace Moaray

open Framework

namespace CircuitBreaker

/-- A call of one of the breaker's operations, by anybody and with any admission.  No protocol is
assumed. -/
inductive Event
  | checkAt (now : Instant)
  | onSuccessAt (now : Instant) (admission : Admission)
  | onFailureAt (now : Instant) (admission : Admission)
  | releaseProbe
  deriving DecidableEq, Repr

/-- What a report says about its call.  A released probe says nothing. -/
inductive Outcome
  | success
  | failure
  deriving DecidableEq, Repr

namespace Event

/-- The outcome an event reports, when it reports one. -/
def outcome : Event → Option Outcome
  | .onSuccessAt _ _ => some .success
  | .onFailureAt _ _ => some .failure
  | .checkAt _ => none
  | .releaseProbe => none

/-- Whether an event reports that the half-open probe succeeded. -/
def probeSucceeded : Event → Bool
  | .onSuccessAt _ .probe => true
  | _ => false

/-- Whether an event reports that the half-open probe failed. -/
def probeFailed : Event → Bool
  | .onFailureAt _ .probe => true
  | _ => false

end Event

def step (b : CircuitBreaker) : Event → CircuitBreaker
  | .checkAt now => (b.checkAt now).1
  | .onSuccessAt now a => b.onSuccessAt now a
  | .onFailureAt now a => b.onFailureAt now a
  | .releaseProbe => b.releaseProbe

@[simp] lemma cfg_step (b : CircuitBreaker) (e : Event) : (b.step e).cfg = b.cfg := by
  cases e <;> simp [step]

/-- A new breaker after a sequence of events.  The events need not come from calls that keep to any
protocol. -/
def after (cfg : BreakerConfig) (es : List Event) : CircuitBreaker := es.foldl step (new cfg)

@[simp] lemma after_concat (cfg : BreakerConfig) (es : List Event) (e : Event) :
    after cfg (es ++ [e]) = (after cfg es).step e := by
  simp [after]

/-! ## History -/

/-- Whether a step became closed, from another state. -/
def becameClosed (b b' : CircuitBreaker) : Bool :=
  decide (b.state ≠ .closed ∧ b'.state = .closed)

/-- Whether a step went from open to half-open. -/
def openedUp (b b' : CircuitBreaker) : Bool :=
  decide (b.state = .opened ∧ b'.state = .halfOpen)

/-- The events since the breaker last became closed.  It is the whole sequence as long as that has
not happened. -/
def sinceClosed (cfg : BreakerConfig) (es : List Event) : List Event :=
  since step becameClosed (new cfg) es

/-- The events since the breaker last went from open to half-open. -/
def sinceHalfOpen (cfg : BreakerConfig) (es : List Event) : List Event :=
  since step openedUp (new cfg) es

/-- The outcomes a sequence of events reports. -/
def outcomes (es : List Event) : List Outcome := es.filterMap Event.outcome

/-- How many probe successes a sequence of events reports. -/
def probeSuccesses (es : List Event) : ℕ := es.countP Event.probeSucceeded

/-- The failures at the end of a sequence of outcomes. -/
def failureStreak (os : List Outcome) : ℕ := streak (fun o => decide (o = .failure)) os

/-! ## What an event does in each state -/

variable {b : CircuitBreaker} {e : Event}

lemma step_closed_of_no_outcome (h : b.state = .closed) (he : e.outcome = none) :
    b.step e = b := by
  cases e with
  | checkAt now => simp [step, checkAt, h]
  | releaseProbe => simp [step, releaseProbe, h]
  | onSuccessAt now a => simp [Event.outcome] at he
  | onFailureAt now a => simp [Event.outcome] at he

lemma step_closed_of_success (h : b.state = .closed) (he : e.outcome = some .success) :
    b.step e = { b with consecutiveFailures := 0 } := by
  cases e with
  | onSuccessAt now a => rw [step, onSuccessAt_closed h]
  | checkAt now => simp [Event.outcome] at he
  | releaseProbe => simp [Event.outcome] at he
  | onFailureAt now a => simp [Event.outcome] at he

/-- A failure that reaches the threshold opens a closed breaker, one below it is counted. -/
lemma step_closed_of_failure (h : b.state = .closed) (he : e.outcome = some .failure) :
    (b.cfg.failureThreshold ≤ b.consecutiveFailures + 1 → (b.step e).state = .opened) ∧
    (¬ b.cfg.failureThreshold ≤ b.consecutiveFailures + 1 →
      b.step e = { b with consecutiveFailures := b.consecutiveFailures + 1 }) := by
  cases e with
  | onFailureAt now a =>
      rw [step, onFailureAt_closed h]
      exact ⟨fun hreached => by rw [if_pos hreached], fun hbelow => by rw [if_neg hbelow]⟩
  | checkAt now => simp [Event.outcome] at he
  | releaseProbe => simp [Event.outcome] at he
  | onSuccessAt now a => simp [Event.outcome] at he

lemma state_step_closed (h : b.state = .closed) :
    (b.step e).state = .closed ∨ (b.step e).state = .opened := by
  cases he : e.outcome with
  | none => exact .inl (by rw [step_closed_of_no_outcome h he, h])
  | some o =>
      cases o with
      | success =>
          rw [step_closed_of_success h he]
          exact .inl h
      | failure =>
          obtain ⟨hopens, hcounts⟩ := step_closed_of_failure h he
          by_cases hreached : b.cfg.failureThreshold ≤ b.consecutiveFailures + 1
          · exact .inr (hopens hreached)
          · rw [hcounts hreached]
            exact .inl h

/-- An open breaker stays open unless a check admits the probe. -/
lemma step_opened (h : b.state = .opened) :
    (b.step e).state = .opened ∨
    ∃ now, e = .checkAt now ∧ (b.checkAt now).2 = .ok .probe ∧
      (b.step e).state = .halfOpen ∧ (b.step e).consecutiveSuccesses = 0 := by
  cases e with
  | checkAt now =>
      by_cases hcool : b.cooledDown now = true
      · exact .inr ⟨now, rfl, by simp [checkAt, h, hcool], by simp [step, checkAt, h, hcool],
          by simp [step, checkAt, h, hcool]⟩
      · exact .inl (by simp [step, checkAt, h, hcool])
  | onSuccessAt now a => exact .inl (by rw [step, onSuccessAt_opened h, h])
  | onFailureAt now a => exact .inl (by rw [step, onFailureAt_opened h, h])
  | releaseProbe => exact .inl (by rw [step, state_releaseProbe, h])

/-- What is neither a probe's success nor its failure leaves a half-open breaker half-open, with
its count of successes. -/
lemma step_halfOpen_of_neither (h : b.state = .halfOpen) (hs : e.probeSucceeded = false)
    (hf : e.probeFailed = false) :
    (b.step e).state = .halfOpen ∧ (b.step e).consecutiveSuccesses = b.consecutiveSuccesses := by
  cases e with
  | checkAt now =>
      by_cases hp : b.probeInFlight = true
      · simp [step, checkAt, h, hp]
      · simp [step, checkAt, h, hp]
  | releaseProbe => simp [step, releaseProbe_halfOpen h, h]
  | onSuccessAt now a =>
      cases a with
      | normal => simp [step, onSuccessAt_halfOpen_normal h, h]
      | probe => simp [Event.probeSucceeded] at hs
  | onFailureAt now a =>
      cases a with
      | normal => simp [step, onFailureAt_halfOpen_normal h, h]
      | probe => simp [Event.probeFailed] at hf

lemma step_halfOpen_of_probeFailed (h : b.state = .halfOpen) (hf : e.probeFailed = true) :
    (b.step e).state = .opened := by
  rcases e with now | ⟨now, a⟩ | ⟨now, a⟩ | _
  case onFailureAt =>
    cases a with
    | normal => simp [Event.probeFailed] at hf
    | probe => rw [step, onFailureAt_halfOpen_probe h]
  all_goals simp [Event.probeFailed] at hf

/-- A probe success that reaches the threshold closes a half-open breaker, one below it is
counted. -/
lemma step_halfOpen_of_probeSucceeded (h : b.state = .halfOpen)
    (hs : e.probeSucceeded = true) :
    (b.cfg.halfOpenSuccesses ≤ b.consecutiveSuccesses + 1 →
      (b.step e).state = .closed ∧ (b.step e).consecutiveFailures = 0) ∧
    (¬ b.cfg.halfOpenSuccesses ≤ b.consecutiveSuccesses + 1 →
      (b.step e).state = .halfOpen ∧
        (b.step e).consecutiveSuccesses = b.consecutiveSuccesses + 1) := by
  rcases e with now | ⟨now, a⟩ | ⟨now, a⟩ | _
  case onSuccessAt =>
    cases a with
    | normal => simp [Event.probeSucceeded] at hs
    | probe =>
        rw [step, onSuccessAt_halfOpen_probe h]
        constructor
        · intro hreached
          rw [if_pos hreached]
          exact ⟨rfl, rfl⟩
        · intro hbelow
          rw [if_neg hbelow]
          exact ⟨h, rfl⟩
  all_goals simp [Event.probeSucceeded] at hs

/-! ## The counters are the history -/

/-- What the counters of the breaker are worth after the events `es`, state by state; while it is
open they are worth nothing. -/
structure Tracks (cfg : BreakerConfig) (es : List Event) (b : CircuitBreaker) : Prop where
  /-- Its thresholds are the configured ones. -/
  thresholds : b.cfg = cfg
  /-- While closed, it counts the failures at the end of the outcomes since it closed. -/
  failures : b.state = .closed →
    b.consecutiveFailures.toNat = failureStreak (outcomes (sinceClosed cfg es)) ∧
      b.consecutiveFailures < cfg.failureThreshold
  /-- While half-open, it counts the probe successes since it opened up. -/
  successes : b.state = .halfOpen →
    b.consecutiveSuccesses.toNat = probeSuccesses (sinceHalfOpen cfg es) ∧
      b.consecutiveSuccesses < cfg.halfOpenSuccesses

/-! ### How the history grows -/

variable {cfg : BreakerConfig} {es : List Event}

lemma outcomes_concat_none (he : e.outcome = none) : outcomes (es ++ [e]) = outcomes es := by
  simp [outcomes, he]

lemma outcomes_concat_some {o : Outcome} (he : e.outcome = some o) :
    outcomes (es ++ [e]) = outcomes es ++ [o] := by
  simp [outcomes, he]

lemma failureStreak_concat_failure (os : List Outcome) :
    failureStreak (os ++ [.failure]) = failureStreak os + 1 := streak_concat_pos rfl

lemma failureStreak_concat_success (os : List Outcome) :
    failureStreak (os ++ [.success]) = 0 := streak_concat_neg rfl

lemma probeSuccesses_concat :
    probeSuccesses (es ++ [e]) = probeSuccesses es + e.probeSucceeded.toNat := by
  simp [probeSuccesses, List.countP_append, List.countP_cons, Bool.toNat]

lemma sinceClosed_concat_of_closed (h : (after cfg es).state = .closed) :
    sinceClosed cfg (es ++ [e]) = sinceClosed cfg es ++ [e] :=
  since_concat_of_not_moved (decide_eq_false fun hmoved => hmoved.1 h)

lemma sinceClosed_concat_of_became (h : (after cfg es).state ≠ .closed)
    (h' : ((after cfg es).step e).state = .closed) : sinceClosed cfg (es ++ [e]) = [] :=
  since_concat_of_moved (decide_eq_true ⟨h, h'⟩)

lemma sinceHalfOpen_concat_of_halfOpen (h : (after cfg es).state = .halfOpen) :
    sinceHalfOpen cfg (es ++ [e]) = sinceHalfOpen cfg es ++ [e] := by
  refine since_concat_of_not_moved (decide_eq_false fun hmoved => ?_)
  have hopened : (after cfg es).state = .opened := hmoved.1
  simp [h] at hopened

lemma sinceHalfOpen_concat_of_openedUp (h : (after cfg es).state = .opened)
    (h' : ((after cfg es).step e).state = .halfOpen) : sinceHalfOpen cfg (es ++ [e]) = [] :=
  since_concat_of_moved (decide_eq_true ⟨h, h'⟩)

/-- The events since closing follow on the one that closed the breaker, or there was none. -/
lemma exists_eq_append_sinceClosed (cfg : BreakerConfig) (es : List Event) :
    ∃ pre, es = pre ++ sinceClosed cfg es ∧
      (pre = [] ∨ ∃ earlier e, pre = earlier ++ [e] ∧
        becameClosed (after cfg earlier) ((after cfg earlier).step e) = true) :=
  exists_eq_append_since step becameClosed (new cfg) es

/-- The events since opening up follow on the one that opened the breaker up, or there was none. -/
lemma exists_eq_append_sinceHalfOpen (cfg : BreakerConfig) (es : List Event) :
    ∃ pre, es = pre ++ sinceHalfOpen cfg es ∧
      (pre = [] ∨ ∃ earlier e, pre = earlier ++ [e] ∧
        openedUp (after cfg earlier) ((after cfg earlier).step e) = true) :=
  exists_eq_append_since step openedUp (new cfg) es

/-! ### One event, and all of them -/

lemma pos_of_one_le {k : UInt32} (h : 1 ≤ k) : 0 < k :=
  UInt32.lt_of_lt_of_le (by decide) h

/-- A counter below its threshold reaches it with the next count just when that is the
threshold. -/
lemma threshold_le_succ_iff {n k : UInt32} (h : n < k) : k ≤ n + 1 ↔ n.toNat + 1 = k.toNat := by
  have hlt : n.toNat < k.toNat := UInt32.lt_iff_toNat_lt.1 h
  rw [UInt32.le_iff_toNat_le, toNat_succ_of_lt h]
  omega

/-- A failure of a closed breaker, against the configured threshold: it is counted, or it is the one
that trips. -/
lemma Tracks.step_closed_of_failure (h : Tracks cfg es b) (hs : b.state = .closed)
    (he : e.outcome = some .failure) :
    (cfg.failureThreshold ≤ b.consecutiveFailures + 1 → (b.step e).state = .opened) ∧
    (¬ cfg.failureThreshold ≤ b.consecutiveFailures + 1 →
      b.step e = { b with consecutiveFailures := b.consecutiveFailures + 1 }) := by
  have hfailure := CircuitBreaker.step_closed_of_failure hs he
  have hreads : b.cfg.failureThreshold = cfg.failureThreshold := by rw [h.thresholds]
  rwa [hreads] at hfailure

lemma Tracks.step_closed (h : Tracks cfg es (after cfg es)) (hs : (after cfg es).state = .closed)
    (hF : 1 ≤ cfg.failureThreshold) : Tracks cfg (es ++ [e]) ((after cfg es).step e) := by
  obtain ⟨hcount, hlt⟩ := h.failures hs
  have hsince := sinceClosed_concat_of_closed (e := e) hs
  have hcfg : ((after cfg es).step e).cfg = cfg := by rw [cfg_step, h.thresholds]
  cases he : e.outcome with
  | none =>
      rw [step_closed_of_no_outcome hs he]
      refine ⟨h.thresholds, fun _ => ?_, fun hhalf => ?_⟩
      · rw [hsince, outcomes_concat_none he]
        exact ⟨hcount, hlt⟩
      · simp [hs] at hhalf
  | some o =>
      cases o with
      | success =>
          rw [step_closed_of_success hs he]
          refine ⟨h.thresholds, fun _ => ?_, fun hhalf => ?_⟩
          · rw [hsince, outcomes_concat_some he, failureStreak_concat_success]
            exact ⟨rfl, pos_of_one_le hF⟩
          · simp [hs] at hhalf
      | failure =>
          obtain ⟨hopens, hcounts⟩ := h.step_closed_of_failure hs he
          by_cases hreached : cfg.failureThreshold ≤ (after cfg es).consecutiveFailures + 1
          · have hopened := hopens hreached
            refine ⟨hcfg, fun hclosed => ?_, fun hhalf => ?_⟩
            · simp [hopened] at hclosed
            · simp [hopened] at hhalf
          · rw [hcounts hreached]
            refine ⟨h.thresholds, fun _ => ?_, fun hhalf => ?_⟩
            · rw [hsince, outcomes_concat_some he, failureStreak_concat_failure, ← hcount]
              exact ⟨toNat_succ_of_lt hlt, UInt32.not_le.1 hreached⟩
            · simp [hs] at hhalf

lemma Tracks.step_opened (h : Tracks cfg es (after cfg es)) (hs : (after cfg es).state = .opened)
    (hS : 1 ≤ cfg.halfOpenSuccesses) : Tracks cfg (es ++ [e]) ((after cfg es).step e) := by
  have hcfg : ((after cfg es).step e).cfg = cfg := by rw [cfg_step, h.thresholds]
  rcases CircuitBreaker.step_opened (e := e) hs with hstays | ⟨now, -, -, hhalf, hzero⟩
  · refine ⟨hcfg, fun hclosed => ?_, fun hhalf => ?_⟩
    · simp [hstays] at hclosed
    · simp [hstays] at hhalf
  · refine ⟨hcfg, fun hclosed => ?_, fun _ => ?_⟩
    · simp [hhalf] at hclosed
    · rw [sinceHalfOpen_concat_of_openedUp hs hhalf, hzero]
      exact ⟨rfl, pos_of_one_le hS⟩

lemma Tracks.step_halfOpen (h : Tracks cfg es (after cfg es))
    (hs : (after cfg es).state = .halfOpen) (hF : 1 ≤ cfg.failureThreshold) :
    Tracks cfg (es ++ [e]) ((after cfg es).step e) := by
  obtain ⟨hcount, hlt⟩ := h.successes hs
  have hcfg : ((after cfg es).step e).cfg = cfg := by rw [cfg_step, h.thresholds]
  have hgrown : probeSuccesses (sinceHalfOpen cfg (es ++ [e])) =
      (after cfg es).consecutiveSuccesses.toNat + e.probeSucceeded.toNat := by
    rw [sinceHalfOpen_concat_of_halfOpen hs, probeSuccesses_concat, hcount]
  cases hsucc : e.probeSucceeded with
  | true =>
      obtain ⟨hcloses, hcounts⟩ := step_halfOpen_of_probeSucceeded hs hsucc
      rw [h.thresholds] at hcloses hcounts
      by_cases hreached : cfg.halfOpenSuccesses ≤ (after cfg es).consecutiveSuccesses + 1
      · obtain ⟨hclosed, hzero⟩ := hcloses hreached
        refine ⟨hcfg, fun _ => ?_, fun hhalf => ?_⟩
        · rw [sinceClosed_concat_of_became (by simp [hs]) hclosed, hzero]
          exact ⟨rfl, pos_of_one_le hF⟩
        · simp [hclosed] at hhalf
      · obtain ⟨hhalf, hone⟩ := hcounts hreached
        refine ⟨hcfg, fun hclosed => ?_, fun _ => ?_⟩
        · simp [hhalf] at hclosed
        · rw [hgrown, hone, hsucc]
          exact ⟨toNat_succ_of_lt hlt, UInt32.not_le.1 hreached⟩
  | false =>
      cases hfail : e.probeFailed with
      | true =>
          have hopened := step_halfOpen_of_probeFailed hs hfail
          refine ⟨hcfg, fun hclosed => ?_, fun hhalf => ?_⟩
          · simp [hopened] at hclosed
          · simp [hopened] at hhalf
      | false =>
          obtain ⟨hhalf, hsame⟩ := step_halfOpen_of_neither hs hsucc hfail
          refine ⟨hcfg, fun hclosed => ?_, fun _ => ?_⟩
          · simp [hhalf] at hclosed
          · rw [hgrown, hsame, hsucc]
            exact ⟨rfl, hlt⟩

lemma Tracks.step (h : Tracks cfg es (after cfg es)) (hF : 1 ≤ cfg.failureThreshold)
    (hS : 1 ≤ cfg.halfOpenSuccesses) : Tracks cfg (es ++ [e]) ((after cfg es).step e) := by
  cases hs : (after cfg es).state with
  | closed => exact h.step_closed hs hF
  | opened => exact h.step_opened hs hS
  | halfOpen => exact h.step_halfOpen hs hF

/-- The counters are the history after every sequence of events, by one step lemma and induction on
the sequence. -/
theorem tracks_after (hF : 1 ≤ cfg.failureThreshold) (hS : 1 ≤ cfg.halfOpenSuccesses)
    (es : List Event) : Tracks cfg es (after cfg es) := by
  induction es using List.reverseRecOn with
  | nil =>
      refine ⟨rfl, fun _ => ⟨rfl, pos_of_one_le hF⟩, fun hhalf => ?_⟩
      simp [after, new] at hhalf
  | append_singleton es e ih =>
      rw [after_concat]
      exact ih.step hF hS

/-! ## Transitions -/

/-- The step that event `e` makes after the events `es` goes from state `s` to state `t`. -/
def Moves (cfg : BreakerConfig) (es : List Event) (e : Event) (s t : BreakerState) : Prop :=
  (after cfg es).state = s ∧ ((after cfg es).step e).state = t

/-- The transitions of a breaker, read off what it was told: when it trips, when it closes, when it
reopens, and that there are no others. -/
structure FollowsHistory (cfg : BreakerConfig) (es : List Event) (e : Event) : Prop where
  /-- It trips on the failure that makes the last `failureThreshold` outcomes since it closed
  failures. -/
  trips : Moves cfg es e .closed .opened ↔
    (after cfg es).state = .closed ∧ e.outcome = some .failure ∧
      List.replicate cfg.failureThreshold.toNat Outcome.failure <:+
        outcomes (sinceClosed cfg es ++ [e])
  /-- It recovers on the probe success that completes `halfOpenSuccesses` of them since it
  opened up. -/
  recovers : Moves cfg es e .halfOpen .closed ↔
    (after cfg es).state = .halfOpen ∧ e.probeSucceeded = true ∧
      probeSuccesses (sinceHalfOpen cfg es ++ [e]) = cfg.halfOpenSuccesses.toNat
  /-- It opens again on a probe failure. -/
  reopens : Moves cfg es e .halfOpen .opened ↔
    (after cfg es).state = .halfOpen ∧ e.probeFailed = true
  /-- It opens up on a check that admits its caller. -/
  opensUp : Moves cfg es e .opened .halfOpen →
    ∃ now, e = .checkAt now ∧ ((after cfg es).checkAt now).2 = .ok .probe
  /-- No other step changes the state. -/
  otherwise : ∀ s t, Moves cfg es e s t → s ≠ t →
    (s = .closed ∧ t = .opened) ∨ (s = .halfOpen ∧ t = .closed) ∨
    (s = .halfOpen ∧ t = .opened) ∨ (s = .opened ∧ t = .halfOpen)

lemma moves_closed_opened_iff (h : Tracks cfg es (after cfg es)) :
    Moves cfg es e .closed .opened ↔
      (after cfg es).state = .closed ∧ e.outcome = some .failure ∧
        List.replicate cfg.failureThreshold.toNat Outcome.failure <:+
          outcomes (sinceClosed cfg es ++ [e]) := by
  refine and_congr_right fun hs => ?_
  obtain ⟨hcount, hlt⟩ := h.failures hs
  cases he : e.outcome with
  | none => simp [step_closed_of_no_outcome hs he, hs]
  | some o =>
      cases o with
      | success => simp [step_closed_of_success hs he, hs]
      | failure =>
          obtain ⟨hopens, hcounts⟩ := h.step_closed_of_failure hs he
          have hstreak : List.replicate cfg.failureThreshold.toNat Outcome.failure <:+
              outcomes (sinceClosed cfg es ++ [e]) ↔
              cfg.failureThreshold ≤ (after cfg es).consecutiveFailures + 1 := by
            rw [outcomes_concat_some he, replicate_suffix_iff, UInt32.le_iff_toNat_le,
              toNat_succ_of_lt hlt, hcount, ← failureStreak_concat_failure]
            rfl
          rw [hstreak]
          constructor
          · intro hopened
            refine ⟨rfl, ?_⟩
            by_contra hbelow
            rw [hcounts hbelow] at hopened
            simp [hs] at hopened
          · rintro ⟨-, hreached⟩
            exact hopens hreached

lemma moves_halfOpen_closed_iff (h : Tracks cfg es (after cfg es)) :
    Moves cfg es e .halfOpen .closed ↔
      (after cfg es).state = .halfOpen ∧ e.probeSucceeded = true ∧
        probeSuccesses (sinceHalfOpen cfg es ++ [e]) = cfg.halfOpenSuccesses.toNat := by
  refine and_congr_right fun hs => ?_
  obtain ⟨hcount, hlt⟩ := h.successes hs
  cases hsucc : e.probeSucceeded with
  | true =>
      obtain ⟨hcloses, hcounts⟩ := step_halfOpen_of_probeSucceeded hs hsucc
      rw [h.thresholds, threshold_le_succ_iff hlt, hcount] at hcloses hcounts
      rw [probeSuccesses_concat, hsucc, Bool.toNat_true]
      constructor
      · intro hclosed
        refine ⟨rfl, ?_⟩
        by_contra hbelow
        simp [(hcounts hbelow).1] at hclosed
      · rintro ⟨-, hreached⟩
        exact (hcloses hreached).1
  | false =>
      have hstays : ((after cfg es).step e).state ≠ .closed := by
        cases hfail : e.probeFailed with
        | true => simp [step_halfOpen_of_probeFailed hs hfail]
        | false => simp [(step_halfOpen_of_neither hs hsucc hfail).1]
      simp [hstays]

lemma moves_halfOpen_opened_iff :
    Moves cfg es e .halfOpen .opened ↔
      (after cfg es).state = .halfOpen ∧ e.probeFailed = true := by
  refine and_congr_right fun hs => ?_
  constructor
  · intro hopened
    by_contra hfail
    cases hsucc : e.probeSucceeded with
    | true =>
        obtain ⟨hcloses, hcounts⟩ := step_halfOpen_of_probeSucceeded hs hsucc
        by_cases hreached :
            (after cfg es).cfg.halfOpenSuccesses ≤ (after cfg es).consecutiveSuccesses + 1
        · simp [(hcloses hreached).1] at hopened
        · simp [(hcounts hreached).1] at hopened
    | false => simp [(step_halfOpen_of_neither hs hsucc (by simpa using hfail)).1] at hopened
  · exact step_halfOpen_of_probeFailed hs

lemma admits_of_moves_opened_halfOpen (h : Moves cfg es e .opened .halfOpen) :
    ∃ now, e = .checkAt now ∧ ((after cfg es).checkAt now).2 = .ok .probe := by
  obtain ⟨hs, ht⟩ := h
  rcases step_opened (e := e) hs with hstays | ⟨now, he, hadmits, -, -⟩
  · simp [hstays] at ht
  · exact ⟨now, he, hadmits⟩

/-- A closed breaker cannot go to half-open, and an open one cannot close. -/
lemma moves_cases {s t : BreakerState} (h : Moves cfg es e s t) (hst : s ≠ t) :
    (s = .closed ∧ t = .opened) ∨ (s = .halfOpen ∧ t = .closed) ∨
    (s = .halfOpen ∧ t = .opened) ∨ (s = .opened ∧ t = .halfOpen) := by
  obtain ⟨hs, ht⟩ := h
  cases s with
  | closed =>
      cases t with
      | closed => exact absurd rfl hst
      | opened => simp
      | halfOpen =>
          rcases state_step_closed (e := e) hs with hstays | hopened
          · simp [hstays] at ht
          · simp [hopened] at ht
  | opened =>
      cases t with
      | halfOpen => simp
      | opened => exact absurd rfl hst
      | closed =>
          rcases step_opened (e := e) hs with hstays | ⟨now, -, -, hhalf, -⟩
          · simp [hstays] at ht
          · simp [hhalf] at ht
  | halfOpen =>
      cases t with
      | closed => simp
      | opened => simp
      | halfOpen => exact absurd rfl hst

/-- The breaker trips and recovers exactly by its history, whatever it is told and in whatever
order. -/
theorem state_follows_history (hF : 1 ≤ cfg.failureThreshold) (hS : 1 ≤ cfg.halfOpenSuccesses)
    (es : List Event) (e : Event) : FollowsHistory cfg es e where
  trips := moves_closed_opened_iff (tracks_after hF hS es)
  recovers := moves_halfOpen_closed_iff (tracks_after hF hS es)
  reopens := moves_halfOpen_opened_iff
  opensUp := admits_of_moves_opened_halfOpen
  otherwise := fun _ _ h hst => moves_cases h hst

/-- With both thresholds two, the second failure in a row trips the breaker: the success before
them is not held in its favour. -/
theorem state_follows_history_twice :
    Moves { failureThreshold := 2, openMs := 0, halfOpenSuccesses := 2 }
      [.checkAt 0, .onSuccessAt 1 .normal, .onFailureAt 2 .normal] (.onFailureAt 3 .normal)
      .closed .opened :=
  (state_follows_history (by decide) (by decide) _ _).trips.2 (by decide)

end CircuitBreaker

end Moaray
