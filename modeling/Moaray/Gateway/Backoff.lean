import Moaray.Gateway.Coherence

/-!
# Retry backoff

The delay before retry number `k` is the base backoff times `1 << (k - 1)`.  The product saturates;
the shift does not: from an amount of 64 on the checked build panics, and the release build takes
the amount modulo 64.  Validation puts no bound on the number of retries.

* `SafeDelay` — the shift is within the width, and the delay is the base backoff doubled `k - 1`
  times, up to the greatest 64-bit integer.
* `safeDelay_iff` — up to retry number 64, and no further.
* `backoff_safe_iff` — what this means for the configurations that validation accepts.
* `backoff_unsafe` — an accepted configuration whose last delays are not safe.

**Design.**  The two builds differ only in the shift, and each has its own definition of the delay:
`Call.backoff` is the release build's, which the calls of the gateway run, and `checkedBackoff`
says where the checked build stops.  A delay is safe when the two agree on the intended value.
-/

namespace Moaray

namespace Governed

/-! ## The two builds -/

/-- A left shift of a 64-bit integer in the checked build, which panics from an amount of 64 on. -/
def checkedShl (a : UInt64) (n : UInt32) : Option UInt64 :=
  if n < 64 then some (a <<< n.toUInt64) else none

/-- The delay before retry number `attempt` in the checked build. -/
def Call.checkedBackoff (c : Call) (attempt : UInt32) : Option UInt64 :=
  (checkedShl 1 (attempt - 1)).map (saturatingMul c.retry.backoffMs)

/-- The delay before retry number `attempt` is computed without a panic, and it is `backoffMs`
doubled `attempt - 1` times. -/
structure SafeDelay (backoffMs : UInt64) (c : Call) (attempt : UInt32) : Prop where
  checked : c.checkedBackoff attempt = some (c.backoff attempt)
  exact : (c.backoff attempt).toNat =
    min (backoffMs.toNat * 2 ^ (attempt.toNat - 1)) (2 ^ 64 - 1)

/-! ## The arithmetic -/

lemma toNat_saturatingMul (a b : UInt64) :
    (saturatingMul a b).toNat = min (a.toNat * b.toNat) (2 ^ 64 - 1) := by
  unfold saturatingMul
  split
  · rename_i hlt
    rw [UInt64.toNat_mul, Nat.mod_eq_of_lt hlt]
    have hle : a.toNat * b.toNat ≤ 2 ^ 64 - 1 := Nat.le_pred_of_lt hlt
    omega
  · rename_i hge
    have hsize : UInt64.size = 2 ^ 64 := rfl
    rw [hsize] at hge
    have hmax : (UInt64.ofNat (UInt64.size - 1)).toNat = 2 ^ 64 - 1 := rfl
    rw [hmax]
    omega

/-- Within the width a shifted one is a power of two. -/
lemma toNat_one_shiftLeft {n : UInt32} (h : n < 64) :
    ((1 : UInt64) <<< n.toUInt64).toNat = 2 ^ n.toNat := by
  have hn : n.toNat < 64 := UInt32.lt_iff_toNat_lt.1 h
  have hpow : 2 ^ n.toNat < 2 ^ 64 := Nat.pow_lt_pow_right (by norm_num) hn
  rw [UInt64.toNat_shiftLeft, UInt32.toNat_toUInt64, Nat.mod_eq_of_lt hn, UInt64.toNat_one,
    Nat.one_shiftLeft, Nat.mod_eq_of_lt hpow]

lemma toNat_sub_one {k : UInt32} (h : 1 ≤ k) : (k - 1).toNat = k.toNat - 1 := by
  rw [UInt32.toNat_sub_of_le _ _ h, UInt32.toNat_one]

/-- The shift is within the width for the first 64 retries. -/
lemma sub_one_lt_iff {k : UInt32} (h : 1 ≤ k) : k - 1 < 64 ↔ k ≤ 64 := by
  have hone : 1 ≤ k.toNat := UInt32.le_iff_toNat_le.1 h
  have h64 : (64 : UInt32).toNat = 64 := rfl
  rw [UInt32.lt_iff_toNat_lt, UInt32.le_iff_toNat_le, toNat_sub_one h, h64]
  omega

variable {c : Call} {j k : UInt32}

/-- The delays are safe up to retry number 64, and no further: the next one shifts by the whole
width. -/
theorem safeDelay_iff (hk : 1 ≤ k) : SafeDelay c.retry.backoffMs c k ↔ k ≤ 64 := by
  rw [← sub_one_lt_iff hk]
  constructor
  · intro h
    by_contra hover
    have hpanics : c.checkedBackoff k = none := by
      rw [Call.checkedBackoff, checkedShl, if_neg hover, Option.map_none]
    have hdelay := h.checked
    rw [hpanics] at hdelay
    cases hdelay
  · intro hwidth
    constructor
    · rw [Call.checkedBackoff, checkedShl, if_pos hwidth, Option.map_some, Call.backoff]
    · rw [Call.backoff, toNat_saturatingMul, toNat_one_shiftLeft hwidth, toNat_sub_one hk]

lemma SafeDelay.mono {base : UInt64} (hj : SafeDelay base c j) (hk : SafeDelay base c k)
    (hjk : j ≤ k) : c.backoff j ≤ c.backoff k := by
  have hle : j.toNat ≤ k.toNat := UInt32.le_iff_toNat_le.1 hjk
  rw [UInt64.le_iff_toNat_le, hj.exact, hk.exact]
  gcongr
  · norm_num

/-! ## Accepted configurations -/

/-- The calls of a provider that runs under a configuration's retry policy. -/
def callOf (method : Method) (config : RuntimeConfig) : Call where
  method := method
  retry := config.server.retry

/-- A validated configuration keeps the retry policy of its document. -/
lemma retry_callOf {P : Platform} {doc : ConfigDoc} {config : RuntimeConfig} (method : Method)
    (h : validate P doc = .ok config) :
    (callOf method config).retry.maxRetries = doc.server.retry.maxRetries ∧
      (callOf method config).retry.backoffMs = doc.server.retry.backoffMs := by
  obtain ⟨-, -, -, -, -, hserver⟩ := validate_ok h
  rw [callOf, hserver]
  exact ⟨rfl, rfl⟩

/-- Under every accepted configuration, the delay before a retry is safe just when the retry is
one of the first 64, so all of them are just when no more than 64 retries are configured; safe
delays do not decrease. -/
theorem backoff_safe_iff {P : Platform} {doc : ConfigDoc} {config : RuntimeConfig}
    (h : validate P doc = .ok config) (method : Method) :
    (∀ k, 1 ≤ k → k ≤ config.server.retry.maxRetries →
      (SafeDelay doc.server.retry.backoffMs (callOf method config) k ↔ k ≤ 64)) ∧
    ((∀ k, 1 ≤ k → k ≤ config.server.retry.maxRetries →
      SafeDelay doc.server.retry.backoffMs (callOf method config) k) ↔
        doc.server.retry.maxRetries ≤ 64) ∧
    (∀ j k, 1 ≤ j → j ≤ k → k ≤ config.server.retry.maxRetries → k ≤ 64 →
      (callOf method config).backoff j ≤ (callOf method config).backoff k) := by
  obtain ⟨hmax, hbackoff⟩ := retry_callOf method h
  replace hmax : config.server.retry.maxRetries = doc.server.retry.maxRetries := hmax
  rw [← hbackoff, hmax]
  refine ⟨fun k hk _ => safeDelay_iff hk, ⟨?_, ?_⟩, ?_⟩
  · intro hall
    by_contra hmany
    have h65 : (65 : UInt32) ≤ doc.server.retry.maxRetries := by
      rw [UInt32.le_iff_toNat_le] at hmany ⊢
      have h64 : (64 : UInt32).toNat = 64 := rfl
      have h65 : (65 : UInt32).toNat = 65 := rfl
      omega
    have hsafe := (safeDelay_iff (by decide)).1 (hall 65 (by decide) h65)
    exact absurd hsafe (by decide)
  · intro hfew k hk hle
    exact (safeDelay_iff hk).2 (UInt32.le_trans hle hfew)
  · intro j k hj hjk _ hk
    have hsafej := (safeDelay_iff (c := callOf method config) hj).2 (UInt32.le_trans hjk hk)
    have hsafek := (safeDelay_iff (c := callOf method config) (UInt32.le_trans hj hjk)).2 hk
    exact hsafej.mono hsafek hjk

/-- A document that asks for many retries with a base backoff of a millisecond. -/
def manyRetriesDoc : ConfigDoc :=
  { Reload.soloDoc none [] with
    server := { retry := { enabled := true, maxRetries := 65, backoffMs := 1 } } }

def manyRetriesConfig : RuntimeConfig :=
  { Reload.soloConfig none [] with server := Validate.serverConfig manyRetriesDoc.server }

lemma validate_manyRetriesDoc :
    validate Reload.soloPlatform manyRetriesDoc = .ok manyRetriesConfig := rfl

/-- The document is accepted, and its last delay is not safe: the checked build panics there, and in
the release build the delay falls back to one millisecond. -/
theorem backoff_unsafe :
    validate Reload.soloPlatform manyRetriesDoc = .ok manyRetriesConfig ∧
      65 ≤ manyRetriesConfig.server.retry.maxRetries ∧
      (callOf .chat manyRetriesConfig).checkedBackoff 65 = none ∧
      (callOf .chat manyRetriesConfig).backoff 65 = 1 ∧
      ¬ SafeDelay 1 (callOf .chat manyRetriesConfig) 65 := by
  have hpanics : (callOf .chat manyRetriesConfig).checkedBackoff 65 = none := rfl
  refine ⟨rfl, by decide, hpanics, by decide, ?_⟩
  intro hsafe
  have hdelay := hsafe.checked
  rw [hpanics] at hdelay
  cases hdelay

theorem backoff_safe_iff_manyRetries :
    SafeDelay 1 (callOf .chat manyRetriesConfig) 64 ∧
      ¬ SafeDelay 1 (callOf .chat manyRetriesConfig) 65 := by
  obtain ⟨heach, -, -⟩ := backoff_safe_iff validate_manyRetriesDoc .chat
  refine ⟨(heach 64 (by decide) (by decide)).2 (by decide), ?_⟩
  intro hsafe
  exact absurd ((heach 65 (by decide) (by decide)).1 hsafe) (by decide)

end Governed

end Moaray
