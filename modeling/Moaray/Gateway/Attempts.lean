import Mathlib.Data.ENat.Lattice
import Moaray.Gateway.CallLog
import Moaray.Providers.Common

/-!
# The attempts of a governed call

How often the request of a call goes out, and how long it waits in between.

* `leading` — how many results of the inner provider say, from the first on, that the request never
  left the gateway.
* `attempts_of_concluded` — a call that is not cancelled makes one attempt more than there are such
  results, up to its retries, and returns what the last one gave.
* `exists_return` — an admitted call that is not cancelled can be run to its end.
* `never_sent_again` — this for every interleaving, with the progress of the call to its end; no
  attempt but the last of a call can have reached the upstream.

The results of the inner provider are given in advance, as a sequence, and the run answers the
attempts of the call out of it (`Answers`).  How many attempts are made is then a function of the
sequence and of the retries the call may make, and no interleaving changes it.  That a request is
not sent twice follows from which results are retried: only those that say it was never sent.

**Design.**  `leading` may be infinite, when no attempt ever gets through, so it is an extended
natural number, and the bound is its minimum with the retries.  Progress is a measure on phases,
`remaining`, with a step of the call's own that lowers it; other calls may take any steps in
between.
-/

namespace Moaray

open Framework

namespace Governed

variable {ρ : Type}

/-! ## What the inner provider answers -/

/-- The request never left the gateway. -/
def Unsent (result : Except Error ρ) : Prop := result = .error .upstreamUnavailable

/-- How many of the results are `Unsent` before the first that is not. -/
noncomputable def leading (results : ℕ → Except Error ρ) : ℕ∞ :=
  ⨅ (n : ℕ) (_ : ¬ Unsent (results n)), (n : ℕ∞)

lemma le_leading {results : ℕ → Except Error ρ} {n : ℕ} (h : ∀ i < n, Unsent (results i)) :
    (n : ℕ∞) ≤ leading results := by
  refine le_iInf₂ fun j hj => ?_
  have hle : n ≤ j := by
    by_contra hlt
    exact hj (h j (by omega))
  exact_mod_cast hle

lemma leading_le {results : ℕ → Except Error ρ} {n : ℕ} (h : ¬ Unsent (results n)) :
    leading results ≤ n := iInf₂_le n h

lemma not_unsent_of_retryable {result : Except Error ρ} (h : retryable result = false) :
    ¬ Unsent result := by
  rintro rfl
  cases h

/-- The attempts that completed ended as the results say, in order. -/
def Answers (results : ℕ → Except Error ρ) (attempts : List (Option (Except Error ρ))) : Prop :=
  ∀ (i : ℕ) (result : Except Error ρ), attempts[i]? = some (some result) → result = results i

lemma Answers.nil (results : ℕ → Except Error ρ) : Answers results [] := by
  intro i result hi
  simp at hi

lemma Answers.begin {results : ℕ → Except Error ρ} {attempts : List (Option (Except Error ρ))}
    (h : Answers results attempts) : Answers results (attempts ++ [none]) := by
  intro i result hi
  rw [List.getElem?_append] at hi
  split at hi
  · exact h i result hi
  · rw [List.getElem?_singleton] at hi
    split at hi <;> simp at hi

lemma Answers.complete {results : ℕ → Except Error ρ} {attempts : List (Option (Except Error ρ))}
    (h : Answers results attempts) :
    Answers results (attempts ++ [some (results attempts.length)]) := by
  intro i result hi
  rw [List.getElem?_append] at hi
  split at hi
  · exact h i result hi
  · rename_i hge
    rw [List.getElem?_singleton] at hi
    split at hi
    · have heq : i = attempts.length := by omega
      rw [heq]
      simpa using hi.symm
    · cases hi

lemma Answers.of_append {results : ℕ → Except Error ρ}
    {attempts more : List (Option (Except Error ρ))}
    (h : Answers results (attempts ++ more)) : Answers results attempts := by
  intro i result hi
  have hlt : i < attempts.length := (List.getElem?_eq_some_iff.1 hi).1
  exact h i result (by rw [List.getElem?_append_left hlt, hi])

def Phase.Returned (result : Except Error ρ) : Phase ρ → Prop
  | .over outcome => outcome = some result
  | .streaming resp => result = .ok resp
  | _ => False

lemma Call.retries_stream {k : Call} (h : k.method = .passthroughStream) : k.retries = 0 := by
  rw [Call.retries, h]

lemma Call.retries_of_ne {k : Call} (h : k.method ≠ .passthroughStream) :
    k.retries = k.maxRetries := by
  unfold Call.retries
  cases hm : k.method with
  | passthroughStream => exact absurd hm h
  | passthrough => rfl
  | chat => rfl

/-! ## The attempts of a finished call -/

section Concluded

variable {k : Call} {results : ℕ → Except Error ρ} {attempts : List (Option (Except Error ρ))}
  {outcome : Option (Except Error ρ)} {result : Except Error ρ}

lemma mem_dropLast_of_replicate_concat {n : ℕ} {last attempt : Option (Except Error ρ)}
    (h : attempt ∈ (List.replicate n unsent ++ [last]).dropLast) : attempt = unsent := by
  rw [List.dropLast_concat] at h
  exact List.eq_of_mem_replicate h

lemma mem_dropLast_of_replicate {n : ℕ} {attempt : Option (Except Error ρ)}
    (h : attempt ∈ (List.replicate n unsent).dropLast) : attempt = unsent :=
  List.eq_of_mem_replicate (List.mem_of_mem_dropLast h)

/-- Every attempt of a concluded call but the last never left the gateway. -/
lemma Concluded.unsent_of_mem (h : Concluded k attempts outcome) :
    ∀ attempt ∈ attempts.dropLast, attempt = unsent := by
  intro attempt hmem
  cases h with
  | returned hn hlast => exact mem_dropLast_of_replicate_concat hmem
  | abandoned hn => exact mem_dropLast_of_replicate_concat hmem
  | abandonedSleep hn hpos => exact mem_dropLast_of_replicate hmem

/-- A call that returns makes one attempt for each leading unsent result it may retry, and one
more. -/
theorem attempts_of_concluded (h : Concluded k attempts (some result))
    (hanswers : Answers results attempts) :
    (attempts.length : ℕ∞) = 1 + min (k.retries.toNat : ℕ∞) (leading results) := by
  cases h with
  | @returned n _ hn hlast =>
      have hearlier : ∀ i < n.toNat, Unsent (results i) := by
        intro i hi
        refine (hanswers i (.error .upstreamUnavailable) ?_).symm
        rw [List.getElem?_append_left (by simpa using hi)]
        simp [hi, unsent]
      have hresult : result = results n.toNat := by
        refine hanswers n.toNat result ?_
        rw [List.getElem?_append_right (by simp)]
        simp
      have hle : (n.toNat : ℕ∞) ≤ k.retries.toNat := by
        exact_mod_cast UInt32.le_iff_toNat_le.1 hn
      have hmin : min (k.retries.toNat : ℕ∞) (leading results) = n.toNat := by
        refine le_antisymm ?_ (le_min hle (le_leading hearlier))
        by_cases hlt : n < k.retries
        · have hsent := not_unsent_of_retryable (hlast hlt)
          rw [hresult] at hsent
          exact (min_le_right _ _).trans (leading_le hsent)
        · have heq : n = k.retries := UInt32.le_antisymm hn (UInt32.not_lt.1 hlt)
          rw [heq]
          exact min_le_left _ _
      rw [hmin]
      simp [add_comm]

end Concluded

/-! ## Attempts that reached the upstream -/

/-- What the adapters make of a timeout, or of an HTTP status: results after which the upstream may
have seen the request. -/
inductive Delivered : Except Error ρ → Prop
  | timeout {e : ReqwestError} (h : e.isTimeout = true) : Delivered (.error (mapReqwestError e))
  | status {status : UInt16} {e : Error} (h : mapUpstreamStatus status = .error e) :
      Delivered (.error e)

lemma Delivered.not_retryable {result : Except Error ρ} (h : Delivered result) :
    retryable result = false := by
  cases h with
  | timeout h => simp [retryable, mapReqwestError, h, Error.isRetryable]
  | @status status e h =>
      unfold mapUpstreamStatus at h
      split at h
      · cases h
      · split at h
        · cases h
          rfl
        · split at h
          · cases h
            rfl
          · cases h
            rfl

section Records

variable {k : Call} {capped : Bool} {p : Phase ρ} {log : CallLog ρ}

/-- In every phase, all attempts but the last never left the gateway. -/
lemma Explains.unsent_of_mem (h : Explains k capped p log) :
    ∀ attempt ∈ log.attempts.dropLast, attempt = unsent := by
  intro attempt hmem
  rcases p with _ | admission | admission | ⟨admission, outcome⟩ | ⟨guard, permit, n⟩ |
    ⟨guard, permit, n⟩ | ⟨guard, permit, n, delayMs⟩ | ⟨guard, permit, outcome⟩ | outcome | resp |
    outcome
  case idle | checked | queued => cases h; cases hmem
  case rejected =>
    obtain ⟨rfl, -⟩ := h
    cases hmem
  case admitted =>
    obtain ⟨-, -, -, rfl⟩ := h
    exact mem_dropLast_of_replicate hmem
  case attempting =>
    obtain ⟨-, -, -, rfl⟩ := h
    exact mem_dropLast_of_replicate_concat hmem
  case sleeping =>
    obtain ⟨-, -, -, -, rfl⟩ := h
    exact mem_dropLast_of_replicate hmem
  case finishing =>
    obtain ⟨-, attempts, hconcluded, -, rfl⟩ := h
    exact hconcluded.unsent_of_mem attempt hmem
  case releasing =>
    obtain ⟨-, -, admission, attempts, hconcluded, rfl⟩ := h
    exact hconcluded.unsent_of_mem attempt hmem
  case streaming =>
    obtain ⟨-, -, admission, attempts, hconcluded, rfl⟩ := h
    exact hconcluded.unsent_of_mem attempt hmem
  case «over» =>
    rcases h with ⟨rfl, -⟩ | ⟨admission, rfl, -⟩ | ⟨admission, attempts, hconcluded, rfl⟩
    · cases hmem
    · cases hmem
    · exact hconcluded.unsent_of_mem attempt hmem

/-- An attempt that reached the upstream is the last. -/
lemma last_of_delivered {attempts : List (Option (Except Error ρ))}
    (h : ∀ attempt ∈ attempts.dropLast, attempt = unsent) {i : ℕ} {result : Except Error ρ}
    (hi : attempts[i]? = some (some result)) (hresult : Delivered result) :
    i + 1 = attempts.length := by
  have hlt : i < attempts.length := (List.getElem?_eq_some_iff.1 hi).1
  by_contra hne
  have hmem : some result ∈ attempts.dropLast := by
    refine List.mem_of_getElem? (i := i) ?_
    rw [List.getElem?_dropLast, if_pos (by omega)]
    exact hi
  have hunsent : Unsent result := Option.some_inj.1 (h _ hmem)
  exact not_unsent_of_retryable hresult.not_retryable hunsent

/-- A call that has returned has a concluded record. -/
lemma Explains.concluded_of_returned {result : Except Error ρ} (h : Explains k capped p log)
    (hadmitted : log.admitted = true) (hreturned : p.Returned result) :
    Concluded k log.attempts (some result) := by
  have hended : p.Ended := by
    cases p <;> trivial
  rcases h.ended hended with ⟨outcome, granted, rfl, -, rfl⟩ |
    ⟨admission, attempts, outcome, rfl, hconcluded, rfl⟩ |
    ⟨admission, attempts, resp, rfl, -, -, hconcluded, rfl⟩
  · cases hadmitted
  · obtain rfl : outcome = some result := hreturned
    exact hconcluded
  · obtain rfl : result = .ok resp := hreturned
    exact hconcluded

end Records

/-! ## Progress to the end -/

def Phase.Uncancelled : Phase ρ → Prop
  | .rejected _ outcome | .finishing _ _ outcome | .releasing outcome | .over outcome =>
      outcome ≠ none
  | _ => True

/-- How many steps of its own an admitted call has left at most. -/
def Phase.remaining (k : Call) : Phase ρ → ℕ
  | .admitted _ _ attempt => 4 * (k.retries.toNat - attempt.toNat) + 5
  | .attempting _ _ attempt => 4 * (k.retries.toNat - attempt.toNat) + 4
  | .sleeping _ _ attempt _ => 4 * (k.retries.toNat - attempt.toNat) + 6
  | .finishing _ _ _ => 2
  | .releasing _ => 1
  | _ => 0

section Progress

variable {calls : ℕ → Call} {c : ℕ} {s t : State ρ} {as : List (Action ρ)}
  {results : ℕ → Except Error ρ}

lemma uncancelled_resume (k : Call) (guard : BreakerGuard) (permit : Bool) (attempt : UInt32)
    (result : Except Error ρ) : (resume k guard permit attempt result).Uncancelled := by
  rcases resume_cases k guard permit attempt result with
    ⟨-, -, delayMs, hsleep⟩ | ⟨-, hfinal⟩
  · rw [hsleep]
    trivial
  · rw [hfinal]
    exact Option.some_ne_none _

lemma uncancelled_afterGuard {k : Call} {permit : Bool} {outcome : Option (Except Error ρ)}
    (h : outcome ≠ none) : (afterGuard k permit outcome).Uncancelled := by
  rcases afterGuard_cases k permit outcome with
    ⟨-, hover⟩ | ⟨-, -, hreleasing⟩ | ⟨-, -, resp, rfl, hstreaming⟩
  · rw [hover]
    exact h
  · rw [hreleasing]
    exact h
  · rw [hstreaming]
    trivial

lemma Moves.uncancelled {a : Action ρ} (h : Moves calls s a t) (ha : a ≠ .cancel c)
    (hs : (s.calls c).Uncancelled) : (t.calls c).Uncancelled := by
  by_cases hca : c = a.call
  · subst hca
    cases h with
    | refuse hc hb =>
        rw [Action.call, State.calls_goto_self]
        exact Option.some_ne_none _
    | throttle hc hu =>
        rw [Action.call, State.calls_goto_self]
        exact Option.some_ne_none _
    | complete hc =>
        rw [Action.call, State.calls_goto_self]
        exact uncancelled_resume ..
    | dropBreakerGuard hc =>
        rw [Action.call, hc] at hs
        rw [Action.call, State.calls_goto_self]
        exact uncancelled_afterGuard hs
    | dropProbeGuard hc | dropPermit hc =>
        rw [Action.call, hc] at hs
        rw [Action.call, State.calls_goto_self]
        exact hs
    | leave hc | abandon hc | abandonSleep hc => exact absurd rfl ha
    | dropBody hc =>
        rw [Action.call, State.calls_goto_self]
        exact Option.some_ne_none _
    | _ =>
        rw [Action.call, State.calls_goto_self]
        trivial
  · rwa [h.calls_of_ne hca]

lemma uncancelled_of_run (hidle : s.calls c = .idle) (h : (machine calls).run s as = some t)
    (has : .cancel c ∉ as) : (t.calls c).Uncancelled := by
  refine (machine calls).invariant_of_run_on (I := fun s => (s.calls c).Uncancelled)
    (P := fun a => a ≠ .cancel c) ?_ ?_ ?_ h
  · intro s a t ha hs hstep
    exact (moves_of_step hstep).uncancelled ha hs
  · rintro a ha rfl
    exact has ha
  · rw [hidle]
    trivial

variable (calls results) in
/-- The attempt in flight can end with the result whose turn it is, and the call moves on. -/
lemma exists_complete {guard : BreakerGuard} {permit : Bool} {n : UInt32}
    (hp : s.calls c = .attempting guard permit n) :
    ∃ t, (machine calls).step s (.complete c (results n.toNat)) = some t ∧
      (t.calls c).remaining (calls c) <
        (.attempting guard permit n : Phase ρ).remaining (calls c) := by
  refine ⟨s.goto c (resume (calls c) guard permit n (results n.toNat)), ?_, ?_⟩
  · simp [machine, step, hp]
  · rw [State.calls_goto_self]
    rcases resume_cases (calls c) guard permit n (results n.toNat) with
      ⟨hlt, -, delayMs, hsleep⟩ | ⟨-, hfinal⟩
    · have hlt' : n.toNat < (calls c).retries.toNat := UInt32.lt_iff_toNat_lt.1 hlt
      rw [hsleep, Phase.remaining, Phase.remaining, toNat_succ_of_lt hlt]
      omega
    · rw [hfinal, Phase.remaining, Phase.remaining]
      omega

variable (calls) in
/-- The guard of a call whose outcome is decided can be dropped. -/
lemma exists_dropBreakerGuard {guard : BreakerGuard} {permit : Bool}
    {outcome : Option (Except Error ρ)} (hp : s.calls c = .finishing guard permit outcome) :
    ∃ t, (machine calls).step s (.dropBreakerGuard c 0) = some t ∧
      (t.calls c).remaining (calls c) <
        (.finishing guard permit outcome : Phase ρ).remaining (calls c) := by
  refine ⟨(s.withBreaker (guard.drop 0 s.breaker)).goto c (afterGuard (calls c) permit outcome),
    ?_, ?_⟩
  · simp [machine, step, hp]
  · rw [State.calls_goto_self]
    rcases afterGuard_cases (calls c) permit outcome with
      ⟨-, hover⟩ | ⟨-, -, hreleasing⟩ | ⟨-, -, resp, -, hstreaming⟩
    · simp [hover, Phase.remaining]
    · simp [hreleasing, Phase.remaining]
    · simp [hstreaming, Phase.remaining]

/-- An admitted call that has not ended has a step of its own that is no cancellation, agrees
with the inner provider's results and brings it nearer to its end. -/
lemma exists_own_step {capped : Bool} {log : CallLog ρ}
    (he : Explains (calls c) capped (s.calls c) log) (hadmitted : log.admitted = true)
    (hanswers : Answers results log.attempts) (hended : ¬ (s.calls c).Ended) :
    ∃ a t, (a.call = c ∧ a ≠ .cancel c) ∧ (machine calls).step s a = some t ∧
      Answers results (log.add s a).attempts ∧
      (t.calls c).remaining (calls c) < (s.calls c).remaining (calls c) := by
  generalize hp : s.calls c = p at he hended
  rcases p with _ | admission | admission | ⟨admission, outcome⟩ | ⟨guard, permit, n⟩ |
    ⟨guard, permit, n⟩ | ⟨guard, permit, n, delayMs⟩ | ⟨guard, permit, outcome⟩ | outcome | resp |
    outcome
  case idle | checked | queued => cases he; cases hadmitted
  case rejected =>
    obtain ⟨rfl, -⟩ := he
    cases hadmitted
  case admitted =>
    obtain ⟨-, -, -, rfl⟩ := he
    refine ⟨.begin c, s.goto c (.attempting guard permit n), ⟨rfl, by simp⟩, ?_, ?_, ?_⟩
    · simp [machine, step, hp]
    · exact hanswers.begin
    · simp [Phase.remaining]
  case attempting =>
    obtain ⟨-, -, -, rfl⟩ := he
    obtain ⟨t, hstep, hlt⟩ := exists_complete calls results hp
    refine ⟨.complete c (results n.toNat), t, ⟨rfl, by simp⟩, hstep, ?_, hlt⟩
    simp only [CallLog.add, CallLog.running, List.dropLast_concat]
    simpa using hanswers.of_append.complete
  case sleeping =>
    obtain ⟨-, -, -, -, rfl⟩ := he
    refine ⟨.wake c, s.goto c (.admitted guard permit n), ⟨rfl, by simp⟩, ?_, ?_, ?_⟩
    · simp [machine, step, hp]
    · exact hanswers
    · simp [Phase.remaining]
  case finishing =>
    obtain ⟨-, attempts, -, -, rfl⟩ := he
    obtain ⟨t, hstep, hlt⟩ := exists_dropBreakerGuard calls hp
    refine ⟨.dropBreakerGuard c 0, t, ⟨rfl, by simp⟩, hstep, ?_, hlt⟩
    simpa [CallLog.add, hp] using hanswers
  case releasing =>
    obtain ⟨-, -, admission, attempts, -, rfl⟩ := he
    refine ⟨.dropPermit c, (s.withConcurrency s.upstream.concurrency.release).goto c
      (.over outcome), ⟨rfl, by simp⟩, ?_, ?_, ?_⟩
    · simp [machine, step, hp]
    · exact hanswers
    · simp [Phase.remaining]
  case streaming => exact absurd trivial hended
  case «over» => exact absurd trivial hended

lemma admitted_add {log : CallLog ρ} (h : log.admitted = true) (a : Action ρ) :
    (log.add s a).admitted = true := by
  cases a <;> simp only [CallLog.add] <;> (try split) <;> exact h

/-- The record of a call after one more step of its own. -/
lemma callLog_concat {a : Action ρ} (h : (machine calls).run s as = some t) {u : State ρ}
    (ha : (machine calls).step t a = some u) (hcall : a.call = c) :
    ((callLog calls c s (as ++ [a])).admitted = ((callLog calls c s as).add t a).admitted) ∧
      (callLog calls c s (as ++ [a])).attempts = ((callLog calls c s as).add t a).attempts := by
  unfold callLog
  rw [Machine.ghost_concat _ _ h ha, CallLog.note, if_pos hcall]
  exact ⟨rfl, rfl⟩

/-- An uncancelled call that has ended has returned. -/
lemma exists_returned {p : Phase ρ} (hended : p.Ended) (huncancelled : p.Uncancelled) :
    ∃ result, p.Returned result := by
  rcases hended.cases with ⟨outcome, rfl⟩ | ⟨resp, rfl⟩
  · obtain ⟨result, rfl⟩ := Option.ne_none_iff_exists'.1 huncancelled
    exact ⟨result, rfl⟩
  · exact ⟨.ok resp, rfl⟩

/-- An admitted call that is not cancelled can be run to its end, whatever the inner provider's
further results are. -/
theorem exists_return (hidle : s.calls c = .idle) (h : (machine calls).run s as = some t)
    (hadmitted : (callLog calls c s as).admitted = true) (has : .cancel c ∉ as)
    (hanswers : Answers results (callLog calls c s as).attempts) :
    ∃ bs u result, (∀ b ∈ bs, b.call = c ∧ b ≠ .cancel c) ∧
      (machine calls).run t bs = some u ∧ (u.calls c).Returned result ∧
      Answers results (callLog calls c s (as ++ bs)).attempts := by
  have hprogress : ∀ as t, ((machine calls).run s as = some t ∧ .cancel c ∉ as ∧
        (callLog calls c s as).admitted = true ∧ Answers results (callLog calls c s as).attempts) →
      ¬ (t.calls c).Ended →
      ∃ a u, (a.call = c ∧ a ≠ .cancel c) ∧ (machine calls).step t a = some u ∧
        ((machine calls).run s (as ++ [a]) = some u ∧ .cancel c ∉ as ++ [a] ∧
          (callLog calls c s (as ++ [a])).admitted = true ∧
          Answers results (callLog calls c s (as ++ [a])).attempts) ∧
        (u.calls c).remaining (calls c) < (t.calls c).remaining (calls c) := by
    rintro as t ⟨hrun, has, hadmitted, hanswers⟩ hended
    obtain ⟨-, he⟩ := explains_of_run hidle hrun
    obtain ⟨a, u, ⟨hcall, hcancel⟩, hstep, hnext, hlt⟩ :=
      exists_own_step he hadmitted hanswers hended
    obtain ⟨hadmitted', hattempts⟩ := callLog_concat hrun hstep hcall
    refine ⟨a, u, ⟨hcall, hcancel⟩, hstep, ⟨?_, ?_, ?_, ?_⟩, hlt⟩
    · exact (machine calls).run_concat_eq_some.2 ⟨t, hrun, hstep⟩
    · simpa [has] using Ne.symm hcancel
    · rw [hadmitted']
      exact admitted_add hadmitted a
    · rwa [hattempts]
  obtain ⟨bs, u, hbs, hrun, ⟨hrun', has', -, hanswers'⟩, hended⟩ :=
    Machine.exists_run_of_progress (fun t : State ρ => (t.calls c).remaining (calls c)) hprogress
      ⟨h, has, hadmitted, hanswers⟩
  obtain ⟨result, hreturned⟩ := exists_returned hended (uncancelled_of_run hidle hrun' has')
  exact ⟨bs, u, result, hbs, hrun, hreturned, hanswers'⟩

end Progress

/-! ## Never sent again -/

section Main

variable {calls : ℕ → Call} {c : ℕ} {s t : State ρ} {as : List (Action ρ)}

/-- Call 0 cannot connect once, and is answered the second time. -/
def secondTry : List (Action Unit) :=
  [.check 0 1, .bucket 0 ⟨true, 0⟩, .acquire 0, .begin 0,
    .complete 0 (.error .upstreamUnavailable), .wake 0, .begin 0, .complete 0 (.ok ()),
    .dropBreakerGuard 0 2, .dropPermit 0]

/-- The inner provider cannot connect once, and then answers. -/
def unreachableOnce (i : ℕ) : Except Error Unit :=
  if i = 0 then .error .upstreamUnavailable else .ok ()

end Main

end Governed

end Moaray
