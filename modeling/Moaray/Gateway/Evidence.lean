import Moaray.Gateway.Recovery
import Moaray.Providers.Anthropic

/-!
# What moves the breaker of a governed Anthropic provider

`GovernedProvider` over `AnthropicProvider`: the inner attempt of a call is the adapter's, and the
environment answers only with what the network made of the request.  A history variable remembers,
for each call, what its last attempt put on the wire and what came back.

`BreakerGuard::record` knows two outcomes.  A request the adapter rejects before sending is
reported as a success, although the upstream has said nothing.

* `RejectedLocally`, `Harmless` — a call about to report such a rejection, and the breaker states
  in which that report changes nothing.
* `rejection_reports_success` — what it reports.
* `closes_on_evidence` — while such reports are harmless, a half-open breaker closes only after the
  required number of probes the upstream answered.
* `local_rejections` — a run leaves the breaker's counters and state alone at every such report
  exactly if all of them are harmless, and then recovery rests on the upstream's answers.

A reported success clears the streak of failures while the breaker is closed, and counts towards
closing while it is half-open, if the call is the probe.  In all other cases it changes nothing,
and `Harmless` lists these.  So the condition is on the state a report finds, and not on what the
report does.

**Design.**  The system is that of the governed calls with the results of attempts taken from the
adapter: a step that completes an attempt carries the reply of the network, and the result is
computed.  Every run of it is a run of the governed calls (`gov_moves`), whose invariants are used
as they are.  The history variable is written when an attempt completes and read by no step.
-/

namespace Moaray

open Framework Json AnthropicMap

/-- A governed Anthropic provider, with the calls made on it and what each of them brings.  The
adapter decides whether anything is sent. -/
structure GovernedAnthropic where
  serde : SerdeJson
  provider : AnthropicProvider
  retry : RetryConfig
  ctx : ℕ → ReqCtx
  requests : ℕ → ProviderCall

/-- What an attempt put on the wire, if anything, and what the network made of it.  The latter is
recorded even if nothing was sent. -/
structure Exchange where
  sent : Option HttpRequest
  reply : UpstreamReply

/-- The upstream answered: a request was sent and a response came back. -/
def Exchange.answered (x : Exchange) : Bool := x.sent.isSome && x.reply.isOk

namespace GovernedAnthropic

variable (w : GovernedAnthropic)

def method : ProviderCall → Governed.Method
  | .passthrough _ => .passthrough
  | .passthroughStream _ => .passthroughStream
  | .chat _ => .chat

/-- The calls as `GovernedProvider` sees them. -/
def calls (c : ℕ) : Governed.Call where
  method := method (w.requests c)
  retry := w.retry

def attempt (c : ℕ) (reply : UpstreamReply) : Attempt ProviderReply :=
  w.provider.call w.serde (w.ctx c) (w.requests c) reply

/-- The governed calls, and the exchange of each call's last attempt; the latter is read by no step.
-/
structure State where
  gov : Governed.State ProviderReply
  last : ℕ → Option Exchange

/-- One step: an inner attempt completes with what the network made of it, or the governed
calls take a step of another kind. -/
inductive Action
  | complete (c : ℕ) (reply : UpstreamReply)
  | move (a : Governed.Action ProviderReply)

def Action.gov : Action → Governed.Action ProviderReply
  | .complete c reply => .complete c (w.attempt c reply).result
  | .move a => a

/-- The exchange an action completes. -/
def record (s : State) : Action → ℕ → Option Exchange
  | .complete c reply =>
      Function.update s.last c (some { sent := (w.attempt c reply).sent, reply := reply })
  | .move _ => s.last

/-- An attempt completes only through the adapter. -/
def Action.permitted : Action → Bool
  | .move (.complete _ _) => false
  | _ => true

def step (s : State) (a : Action) : Option State :=
  if a.permitted then
    (Governed.step w.calls s.gov (a.gov w)).map fun g => { gov := g, last := w.record s a }
  else none

/-- The interleavings of the calls over one slot. -/
def machine : Machine State Action where
  step := w.step

/-- A slot with a fresh breaker, before any call is polled. -/
def Fresh (cfg : BreakerConfig) (s : State) : Prop :=
  Governed.Fresh cfg s.gov ∧ s.last = fun _ => none

variable {w} {s t u : State} {cfg : BreakerConfig}

/-! ## The governed calls underneath -/

lemma step_eq_some {a : Action} (h : w.machine.step s a = some t) :
    a.permitted = true ∧ (Governed.machine w.calls).step s.gov (a.gov w) = some t.gov ∧
      t.last = w.record s a := by
  replace h : w.step s a = some t := h
  unfold step at h
  split at h
  · rename_i hp
    obtain ⟨g, hg, rfl⟩ := Option.map_eq_some_iff.1 h
    exact ⟨hp, hg, rfl⟩
  · cases h

lemma gov_moves {a : Action} (h : w.machine.step s a = some t) :
    Governed.Moves w.calls s.gov (a.gov w) t.gov :=
  Governed.moves_of_step (step_eq_some h).2.1

lemma gov_reachable (h : w.machine.Reachable (Fresh cfg) s) :
    (Governed.machine w.calls).Reachable (Governed.Fresh cfg) s.gov := by
  refine h.refines State.gov (fun _ a => [a.gov w]) ?_ ?_
  · intro s hs
    exact hs.1
  · intro s a t hstep
    simpa using (step_eq_some hstep).2.1

lemma cfg_of_reachable (h : w.machine.Reachable (Fresh cfg) s) : s.gov.breaker.cfg = cfg :=
  Admissions.cfg_of_reachable (Governed.admissions_reachable (gov_reachable h))

/-- Half-open progress stays below what the breaker requires. -/
lemma progress_bound (h : w.machine.Reachable (Fresh cfg) s)
    (hst : s.gov.breaker.state = .halfOpen) :
    s.gov.breaker.consecutiveSuccesses.toNat <
      max s.gov.breaker.cfg.halfOpenSuccesses.toNat 1 :=
  (Admissions.Coherent.of_reachable (Governed.admissions_reachable (gov_reachable h))).successes hst

/-! ## The outcome of a call is its last exchange -/

/-- A call that has ended with a result has it from its last exchange.  Exchanges before that one
were retried, and their results are dropped. -/
theorem last_of_finishing (h : w.machine.Reachable (Fresh cfg) s) {c : ℕ} {guard : BreakerGuard}
    {permit : Bool} {result : Except Error ProviderReply}
    (hc : s.gov.calls c = .finishing guard permit (some result)) :
    ∃ x, s.last c = some x ∧ x.sent = (w.attempt c x.reply).sent ∧
      result = (w.attempt c x.reply).result := by
  refine Machine.Reachable.invariant (I := fun s => ∀ c guard permit result,
    s.gov.calls c = .finishing guard permit (some result) →
      ∃ x, s.last c = some x ∧ x.sent = (w.attempt c x.reply).sent ∧
        result = (w.attempt c x.reply).result) h ?_ ?_ c guard permit result hc
  · rintro s ⟨⟨upstream, -, hgov⟩, -⟩ c guard permit result hc
    rw [hgov] at hc
    cases hc
  · intro s a t hs hstep c guard permit result hc
    obtain ⟨hpermitted, -, hlast⟩ := step_eq_some hstep
    rcases (gov_moves hstep).finished hc with hold | hcomplete
    · obtain ⟨x, hx, hsent, hresult⟩ := hs c guard permit result hold
      refine ⟨x, ?_, hsent, hresult⟩
      rw [hlast]
      cases a with
      | move a => exact hx
      | complete d reply =>
          by_cases hcd : c = d
          · -- A call that has ended has no attempt in flight to complete.
            subst hcd
            obtain ⟨guard', permit', attempt, hd⟩ := (gov_moves hstep).attempting
            rw [hold] at hd
            cases hd
          · rw [record, Function.update_of_ne hcd]
            exact hx
    · cases a with
      | move a =>
          obtain rfl : a = .complete c result := hcomplete
          cases hpermitted
      | complete d reply =>
          simp only [Action.gov, Governed.Action.complete.injEq] at hcomplete
          obtain ⟨rfl, rfl⟩ := hcomplete
          have hrecorded : t.last d = some { sent := (w.attempt d reply).sent, reply } := by
            rw [hlast, record, Function.update_self]
          exact ⟨_, hrecorded, rfl, rfl⟩

/-! ## Local rejections -/

/-- Call `c` is about to report an error, and its last attempt sent nothing.  The upstream has no
part in such an error. -/
def RejectedLocally (s : State) (c : ℕ) : Prop :=
  ∃ guard permit e x, s.gov.calls c = .finishing guard permit (some (.error e)) ∧
    s.last c = some x ∧ x.sent = none

/-- The report of a success by call `c` changes neither the failure streak nor half-open
progress. -/
def Harmless (s : State) (c : ℕ) : Prop :=
  s.gov.breaker.state = .opened ∨
  (s.gov.breaker.state = .closed ∧ s.gov.breaker.consecutiveFailures = 0) ∨
  (s.gov.breaker.state = .halfOpen ∧ (s.gov.calls c).admission = some .normal)

/-- Two breakers agree on the state, the failure streak and half-open progress. -/
def SameProgress (b b' : CircuitBreaker) : Prop :=
  b'.state = b.state ∧ b'.consecutiveFailures = b.consecutiveFailures ∧
    b'.consecutiveSuccesses = b.consecutiveSuccesses

/-- A local rejection is an error of the gateway's own making, and the guard reports it as a
success. -/
theorem rejection_reports_success (h : w.machine.Reachable (Fresh cfg) s) {c : ℕ}
    (hc : RejectedLocally s c) :
    ∃ guard permit e, s.gov.calls c = .finishing guard permit (some (.error e)) ∧
      IsRejection e ∧ guard.succeeded = true := by
  obtain ⟨guard, permit, e, x, hfin, hx, hunsent⟩ := hc
  obtain ⟨x', hx', hsent, hresult⟩ := last_of_finishing h hfin
  obtain rfl : x' = x := by simpa [hx] using hx'.symm
  obtain ⟨e', he', hrej⟩ := AnthropicProvider.call_unsent (hsent.symm.trans hunsent)
  obtain rfl : e = e' := by
    have heq : (Except.error e : Except Error ProviderReply) = .error e' := hresult.trans he'
    cases heq
    rfl
  refine ⟨guard, permit, e, hfin, hrej, ?_⟩
  have hhonest := Governed.honest_of_reachable (gov_reachable h) c
  rw [hfin] at hhonest
  replace hhonest : guard.action = some (Governed.verdict (.error e)) := hhonest
  simp [BreakerGuard.succeeded, hhonest, Governed.verdict, hrej.neutral]

/-- A reported success leaves the counters and the state alone exactly in the harmless cases. -/
lemma sameProgress_onSuccess {b : CircuitBreaker} {now : Instant} {a : Admission} :
    SameProgress b (b.onSuccessAt now a) ↔
      b.state = .opened ∨ (b.state = .closed ∧ b.consecutiveFailures = 0) ∨
        (b.state = .halfOpen ∧ a = .normal) := by
  cases hst : b.state with
  | closed =>
      rw [CircuitBreaker.onSuccessAt_closed hst]
      simp [SameProgress, hst, eq_comm]
  | opened =>
      rw [CircuitBreaker.onSuccessAt_opened hst]
      simp [SameProgress]
  | halfOpen =>
      cases a with
      | normal =>
          rw [CircuitBreaker.onSuccessAt_halfOpen_normal hst]
          simp [SameProgress]
      | probe =>
          rw [CircuitBreaker.onSuccessAt_halfOpen_probe hst]
          split
          · simp [SameProgress, hst]
          · simp [SameProgress, hst]

/-- The report of a local rejection leaves the breaker's progress alone exactly if it is
harmless. -/
theorem sameProgress_iff_harmless (h : w.machine.Reachable (Fresh cfg) s) {c : ℕ} {now : Instant}
    (hstep : w.machine.step s (.move (.dropBreakerGuard c now)) = some t)
    (hc : RejectedLocally s c) :
    SameProgress s.gov.breaker t.gov.breaker ↔ Harmless s c := by
  obtain ⟨guard, permit, e, hfin, -, hsucc⟩ := rejection_reports_success h hc
  obtain ⟨guard', permit', outcome, hfin', hb⟩ := (gov_moves hstep).dropped
  obtain rfl : guard = guard' := by
    rw [hfin] at hfin'
    cases hfin'
    rfl
  rw [hb, BreakerGuard.drop_eq, hsucc, if_pos rfl, sameProgress_onSuccess, Harmless, hfin]
  simp

/-! ## Recovery -/

/-- The step reports a success of a probe that the upstream answered. -/
def answeredProbe (s : State) : Action → Bool
  | .move (.dropBreakerGuard c now) =>
      Governed.probeSuccess s.gov (.dropBreakerGuard c now) && (s.last c).any Exchange.answered
  | _ => false

/-- Every report of a local rejection in the run is harmless.  Reports of other calls are not
restricted. -/
def RejectionsHarmless (w : GovernedAnthropic) (s : State) (as : List Action) : Prop :=
  ∀ pre t c now u, w.machine.Takes s as pre t (.move (.dropBreakerGuard c now)) u →
    RejectedLocally t c → Harmless t c

/-- A probe that reports a success the upstream did not answer reports a rejection, and that is
harmful. -/
lemma answered_of_success (h : w.machine.Reachable (Fresh cfg) s)
    (hst : s.gov.breaker.state = .halfOpen) {c : ℕ} {guard : BreakerGuard} {permit : Bool}
    {outcome : Option (Except Error ProviderReply)}
    (hfin : s.gov.calls c = .finishing guard permit outcome) (hadm : guard.admission = .probe)
    (hsucc : guard.succeeded = true) (hharmless : RejectedLocally s c → Harmless s c) :
    (s.last c).any Exchange.answered = true := by
  have hhonest := Governed.honest_of_reachable (gov_reachable h) c
  rw [hfin] at hhonest
  cases outcome with
  | none =>
      replace hhonest : guard.action = none := hhonest
      simp [BreakerGuard.succeeded, hhonest] at hsucc
  | some result =>
      replace hhonest : guard.action = some (Governed.verdict result) := hhonest
      have hverdict : Governed.verdict result = .success := by
        simpa [BreakerGuard.succeeded, hhonest] using hsucc
      obtain ⟨x, hx, hsent, hresult⟩ := last_of_finishing h hfin
      have hsome : x.sent.isSome := by
        by_contra hnone
        have hunsent : x.sent = none := by simpa using hnone
        obtain ⟨e, he, -⟩ := AnthropicProvider.call_unsent (hsent.symm.trans hunsent)
        have hrej : RejectedLocally s c := by
          refine ⟨guard, permit, e, x, ?_, hx, hunsent⟩
          rw [hfin, hresult]
          exact congrArg (fun r => Governed.Phase.finishing guard permit (some r)) he
        rcases hharmless hrej with h | ⟨h, -⟩ | ⟨-, h⟩
        · simp [hst] at h
        · simp [hst] at h
        · simp [hfin, hadm] at h
      have hok : x.reply.isOk = true := by
        cases hreply : x.reply with
        | ok resp => rfl
        | error failure =>
            rw [hsent, hreply] at hsome
            have hfail := AnthropicProvider.call_unanswered hsome
            rw [hresult, hreply, attempt, hfail, Governed.verdict,
              AnthropicProvider.mapReqwestError_counts] at hverdict
            cases hverdict
      simp [hx, Exchange.answered, hsome, hok]

/-- At a half-open breaker, while rejections are harmless, the reported probe successes are the
answered ones. -/
lemma answered_of_probeSuccess (h : w.machine.Reachable (Fresh cfg) s) {a : Action}
    (hstep : w.machine.step s a = some t) (hst : s.gov.breaker.state = .halfOpen)
    (hharmless :
      ∀ c now, a = .move (.dropBreakerGuard c now) → RejectedLocally s c → Harmless s c) :
    answeredProbe s a = Governed.probeSuccess s.gov (a.gov w) := by
  cases a with
  | complete c reply => rfl
  | move a =>
      cases a with
      | dropBreakerGuard c now =>
          cases hprobe : Governed.probeSuccess s.gov (.dropBreakerGuard c now) with
          | false => simp [answeredProbe, Action.gov, hprobe]
          | true =>
              obtain ⟨guard, permit, outcome, hfin, -⟩ := (gov_moves hstep).dropped
              obtain ⟨hadm, hsucc⟩ : guard.admission = .probe ∧ guard.succeeded = true := by
                simpa [Governed.probeSuccess, hfin] using hprobe
              have hanswered : (s.last c).any Exchange.answered = true :=
                answered_of_success h hst hfin hadm hsucc (hharmless c now rfl)
              simp [answeredProbe, Action.gov, hprobe, hanswered]
      | _ => rfl

/-- While reports of local rejections are harmless, a half-open breaker closes only after as
many probes as it requires have been answered by the upstream since it became half-open. -/
theorem closes_on_evidence {as pre : List Action} {a : Action} (hs : Fresh cfg s)
    (h : w.machine.Takes s as pre t a u) (hharmless : RejectionsHarmless w s as)
    (ht : t.gov.breaker.state = .halfOpen) (hu : u.gov.breaker.state = .closed) :
    ∃ p x c now v q, pre = p ++ .move (.check c now) :: q ∧
      w.machine.run s p = some x ∧ x.gov.breaker.state = .opened ∧
      w.machine.step x (.move (.check c now)) = some v ∧ w.machine.run v q = some t ∧
      w.machine.StaysIn (fun s => s.gov.breaker.state = .halfOpen) v q ∧
      w.machine.tally answeredProbe v (q ++ [a]) = max cfg.halfOpenSuccesses.toNat 1 := by
  have hclosed : ¬ s.gov.breaker.state = .halfOpen := by
    obtain ⟨⟨upstream, hfresh, hgov⟩, -⟩ := hs
    rw [hgov]
    show upstream.breaker.state ≠ .halfOpen
    rw [hfresh]
    nofun
  obtain ⟨post, has, hpre, hstep⟩ := id h
  obtain ⟨p, x, b, v, q, rfl, hp, hb, hq, hx, hstay⟩ := Machine.exists_entry
    (I := fun s : State => s.gov.breaker.state = .halfOpen) hclosed hpre ht
  have hv : v.gov.breaker.state = .halfOpen := hstay [] v (List.nil_prefix) rfl
  obtain ⟨c, now, hcheck, hopen, hzero⟩ := (gov_moves hb).enters_halfOpen hx hv
  obtain rfl : b = .move (.check c now) := by
    cases b with
    | complete d reply => cases hcheck
    | move b => exact congrArg Action.move hcheck
  -- Between the entry and the last step every probe success is an answered one.
  have hcount : t.gov.breaker.consecutiveSuccesses.toNat =
      v.gov.breaker.consecutiveSuccesses.toNat + w.machine.tally answeredProbe v q := by
    refine w.machine.eq_add_tally (fun s => s.gov.breaker.consecutiveSuccesses.toNat) hq ?_
    intro pre' y b z hyz
    obtain ⟨hy, hz⟩ := hstay.of_takes hyz
    have hvrun : w.machine.run s (p ++ [.move (.check c now)]) = some v :=
      w.machine.run_concat_eq_some.2 ⟨x, hp, hb⟩
    have hlift : w.machine.Takes s as (p ++ [.move (.check c now)] ++ pre') y b z := by
      have hlong := (hyz.prepend hvrun).of_append (a :: post)
      simpa [has] using hlong
    have hreach : w.machine.Reachable (Fresh cfg) y := hlift.reachable hs
    have hanswered := answered_of_probeSuccess hreach hyz.step hy
      fun c now hbeq => hharmless _ _ _ _ _ (hbeq ▸ hlift)
    rw [hanswered]
    exact (gov_moves hyz.step).progress hy hz (progress_bound hreach hy)
  have hreach : w.machine.Reachable (Fresh cfg) t := h.reachable hs
  obtain ⟨hprobe, hmax⟩ := (gov_moves hstep).closes ht hu (progress_bound hreach ht)
  have hanswered := answered_of_probeSuccess hreach hstep ht
    fun c now hbeq => hharmless _ _ _ _ _ (hbeq ▸ h)
  refine ⟨p, x, c, now, v, q, rfl, hp, hopen, hb, hq, hstay, ?_⟩
  rw [w.machine.tally_concat hq hstep, hanswered, hprobe, ← cfg_of_reachable hreach, hmax, hcount,
    hzero]
  simp

/-- A run leaves the state, the failure streak and half-open progress alone at every report of
a local rejection exactly if every one of these reports is harmless: the breaker is then open,
or closed without a failure streak, or half-open while the call is no probe.  In such a run a
half-open breaker closes only after the required number of answered probes. -/
theorem local_rejections {as : List Action} (hs : Fresh cfg s) :
    ((∀ pre t c now u, w.machine.Takes s as pre t (.move (.dropBreakerGuard c now)) u →
        RejectedLocally t c → SameProgress t.gov.breaker u.gov.breaker) ↔
      RejectionsHarmless w s as) ∧
    (RejectionsHarmless w s as → ∀ pre t a u, w.machine.Takes s as pre t a u →
      t.gov.breaker.state = .halfOpen → u.gov.breaker.state = .closed →
      ∃ p x c now v q, pre = p ++ .move (.check c now) :: q ∧
        w.machine.run s p = some x ∧ x.gov.breaker.state = .opened ∧
        w.machine.step x (.move (.check c now)) = some v ∧ w.machine.run v q = some t ∧
        w.machine.StaysIn (fun s => s.gov.breaker.state = .halfOpen) v q ∧
        w.machine.tally answeredProbe v (q ++ [a]) = max cfg.halfOpenSuccesses.toNat 1) := by
  refine ⟨⟨?_, ?_⟩, ?_⟩
  · intro h pre t c now u htakes hc
    exact (sameProgress_iff_harmless (htakes.reachable hs) htakes.step hc).1 (h _ _ _ _ _ htakes hc)
  · intro h pre t c now u htakes hc
    exact (sameProgress_iff_harmless (htakes.reachable hs) htakes.step hc).2 (h _ _ _ _ _ htakes hc)
  · intro h pre t a u htakes ht hu
    exact closes_on_evidence hs htakes h ht hu

/-! ### A rejected probe -/

/-- A chat request with a tool, as it comes off the wire. -/
def toolBody : Bytes :=
  utf8 "\x7b\"model\":\"claude\",\"messages\":[],\"tools\":[\x7b\"type\":\"function\"\x7d]\x7d"

def toolSerde : SerdeJson where
  parse body :=
    if body = toolBody then
      .ok (.object (Map.ofFields
        [("model", .string "claude"), ("messages", .array []),
          ("tools", .array [.object [("type", .string "function")]])]))
    else .error "expected value at line 1 column 1"
  print _ := "null"

/-- Call 0 brings a plain structured request, every other call a body that asks for a tool. -/
def toolCaller : GovernedAnthropic where
  serde := toolSerde
  provider :=
    { upstreamId := "claude", baseUrl := "https://upstream", apiKey := "k",
      defaultMaxTokens := 4096 }
  retry := { enabled := false, maxRetries := 0, backoffMs := 0 }
  ctx _ := { requestId := "r", deadline := 0, callerKeyId := "k", model := "claude" }
  requests c :=
    if c = 0 then
      .chat
        { model := "claude", messages := [], stream := none, maxTokens := none,
          temperature := none, topP := none, extra := [] }
    else .passthrough toolBody

/-- A slot whose breaker opens on the first failure, before any call. -/
def toolStart : State where
  gov := Governed.State.init Governed.tightSlot
  last _ := none

/-- Call 0 meets a dead upstream and opens the breaker; after the cooldown call 1 is the probe, and
its request is rejected before anything is sent. -/
def toolRun : List Action :=
  [.move (.check 0 1), .move (.bucket 0 ⟨true, 0⟩), .move (.acquire 0), .move (.begin 0),
    .complete 0 (.error { isTimeout := false, isConnect := true }),
    .move (.dropBreakerGuard 0 2), .move (.dropPermit 0), .move (.check 1 1000002),
    .move (.bucket 1 ⟨true, 0⟩), .move (.acquire 1), .move (.begin 1),
    .complete 1 (.error { isTimeout := false, isConnect := true })]

/-- The upstream has answered nothing, and yet the rejected probe closes the breaker. -/
theorem rejected_probe_closes :
    ∃ t u, toolCaller.machine.Takes toolStart (toolRun ++ [.move (.dropBreakerGuard 1 1000003)])
        toolRun t (.move (.dropBreakerGuard 1 1000003)) u ∧
      RejectedLocally t 1 ∧ t.gov.breaker.state = .halfOpen ∧ u.gov.breaker.state = .closed := by
  refine ⟨_, _, ⟨[], rfl, rfl, rfl⟩, ⟨_, _, _, _, rfl, rfl, rfl⟩, rfl, rfl⟩

/-- The report of that probe is not harmless: after it the breaker is closed. -/
theorem local_rejections_rejected_probe :
    ¬ RejectionsHarmless toolCaller toolStart
      (toolRun ++ [.move (.dropBreakerGuard 1 1000003)]) := by
  have hfresh : Fresh Governed.hairTrigger toolStart := ⟨⟨Governed.tightSlot, rfl, rfl⟩, rfl⟩
  intro hharmless
  have hsame := (local_rejections hfresh).1.2 hharmless toolRun _ 1 1000003 _
    ⟨[], rfl, rfl, rfl⟩ ⟨_, _, _, _, rfl, rfl, rfl⟩
  cases hsame.1

end GovernedAnthropic

end Moaray
