import Moaray.Config.Accepts
import Moaray.Gateway.Coherence
import Moaray.Gateway.Digest
import Moaray.Gateway.RequestCount

/-!
# Which tokens open which keys

Authentication against the configured secrets: a key of an environment variable is opened by what
the variable holds, a key of a digest by the texts of that SHA-256, and a caller is whoever the
first key opened says.

* `KeyDoc.opens`, `ConfigDoc.opened` — what a key's document promises, and whom a text
  authenticates.
* `HeaderValue` — what a header can hold: any bytes but control characters.
* `caller_bearer` — what a bearer header comes to: its text is trimmed first.
* `authenticates_iff` — the texts that authenticate whom they should; nothing else authenticates.
* `spaced_secret_rejected` — a secret that nobody can present.

A text is presented behind `Bearer `, as the bytes of a header.  Two things happen to it on the way
to the comparison: a header that is not visible ASCII is not read at all, and the token is trimmed.
The secret is configured in the environment and goes through neither.

**Design.**  The promise is a function of the document and the platform and mentions no
configuration and no header.  That an accepted key is opened by what its document says it is opened
by is `accepts_eq_opens`; everything between that and the theorem is about headers.
-/

namespace Moaray

open Framework

/-! ## What the configuration promises -/

/-- The SHA-256 of a text, in lower-case hexadecimal. -/
def hexDigest (t : String) : String :=
  String.ofList (Fips180.hex (Fips180.digest (Sha256.messageBits (utf8 t))))

/-- Whether a text is the secret of a key; the case of a configured digest does not matter. -/
def KeyDoc.opens (P : Platform) (t : String) (k : KeyDoc) : Bool :=
  !t.isEmpty &&
    match k.keyEnv with
    | some envVar => P.env envVar == some t
    | none => k.keySha256.map P.toLowercase == some (hexDigest t)

/-- Whom a text authenticates: the first key it opens. -/
def ConfigDoc.opened (P : Platform) (doc : ConfigDoc) (t : String) : Option AuthContext :=
  (doc.keys.find? (KeyDoc.opens P t)).map fun k => { keyId := k.id, allowModels := k.allowModels }

/-! ## Headers -/

/-- A header value: no control characters but tabs.  It need not be text. -/
structure HeaderValue where
  bytes : Bytes
  valid : ∀ b ∈ bytes, (32 ≤ b.toNat ∧ b.toNat ≠ 127) ∨ b.toNat = 9

/-- `to_str`: visible ASCII characters, spaces and tabs only. -/
def HeaderValue.toStr (v : HeaderValue) : Option String :=
  if v.bytes.all fun b => (32 ≤ b.toNat && b.toNat < 127) || b.toNat == 9 then fromUtf8 v.bytes
  else none

/-- The request with an `Authorization` header. -/
def Request.withAuthorization (req : Request) (v : HeaderValue) : Request :=
  { req with authorization := v.toStr }

lemma isHeaderValue_iff (s : String) :
    isHeaderValue s ↔ ∀ c ∈ s.toList, (32 ≤ c.toNat ∧ c.toNat < 127) ∨ c.toNat = 9 := by
  have htab (c : Char) : c = '\t' ↔ c.toNat = 9 := by
    constructor
    · rintro rfl
      rfl
    · intro h
      exact Char.ext (UInt32.toNat_inj.1 h)
  simp [isHeaderValue, htab]

/-- The bytes of a text are visible just when its characters are. -/
lemma all_utf8_iff (s : String) :
    (utf8 s).all (fun b => (32 ≤ b.toNat && b.toNat < 127) || b.toNat == 9) = isHeaderValue s := by
  rw [Bool.eq_iff_iff, isHeaderValue_iff, List.all_eq_true]
  simp only [Bool.or_eq_true, Bool.and_eq_true, decide_eq_true_eq, beq_iff_eq]
  constructor
  · intro h c hc
    obtain ⟨b, hb⟩ := List.exists_mem_of_ne_nil _ (String.utf8EncodeChar_ne_nil (c := c))
    have hbyte : b ∈ utf8 s := by
      rw [utf8_eq]
      exact List.mem_flatMap.2 ⟨c, hc, hb⟩
    have hvisible := h b hbyte
    have hnat : c.toNat = b.toNat := utf8EncodeChar_ascii hb (by omega)
    omega
  · intro h b hb
    rw [utf8_eq] at hb
    obtain ⟨c, hc, hbyte⟩ := List.mem_flatMap.1 hb
    have hvisible := h c hc
    have hascii : c.val.toNat ≤ 127 := by
      have hval : c.val.toNat = c.toNat := rfl
      omega
    have hnat : b.toNat = c.toNat := by
      unfold String.utf8EncodeChar at hbyte
      simp only [] at hbyte
      rw [if_pos hascii, List.mem_singleton] at hbyte
      rw [hbyte, UInt8.toNat_ofNat', Nat.mod_eq_of_lt (by omega)]
      rfl
    omega

/-- The value of a text's bytes is read as the text, if that is visible. -/
lemma HeaderValue.toStr_of_text {v : HeaderValue} {s : String} (h : v.bytes = utf8 s) :
    v.toStr = if isHeaderValue s then some s else none := by
  unfold HeaderValue.toStr
  rw [h, all_utf8_iff, fromUtf8_utf8]

lemma isHeaderValue_bearer (s : String) : isHeaderValue ("Bearer " ++ s) = isHeaderValue s := by
  have hbearer := (isHeaderValue_iff "Bearer ").1 (by decide)
  rw [Bool.eq_iff_iff, isHeaderValue_iff, isHeaderValue_iff, String.toList_append]
  constructor
  · exact fun h c hc => h c (List.mem_append_right _ hc)
  · intro h c hc
    rcases List.mem_append.1 hc with hc | hc
    · exact hbearer c hc
    · exact h c hc

/-! ## The gateway's keys -/

section Keys

variable {P : Platform} {doc : ConfigDoc}

lemma ctEq_iff {a b : Bytes} : ctEq a b ↔ a = b := by
  have hzero (ps : List (UInt8 × UInt8)) (diff : UInt8) :
      ps.foldl (fun diff xy => diff ||| (xy.1 ^^^ xy.2)) diff = 0 ↔
        diff = 0 ∧ ∀ p ∈ ps, p.1 = p.2 := by
    induction ps generalizing diff with
    | nil => simp
    | cons p ps ih =>
        rw [List.foldl_cons, ih, UInt8.or_eq_zero_iff, UInt8.xor_eq_zero_iff,
          List.forall_mem_cons, and_assoc]
  unfold ctEq
  by_cases hlength : a.length = b.length
  · rw [if_neg (by simpa using hlength), beq_iff_eq, hzero]
    constructor
    · rintro ⟨-, hall⟩
      refine List.ext_getElem hlength fun i ha hb => hall (a[i], b[i]) ?_
      rw [← List.getElem_zip (h := by simp; omega)]
      exact List.getElem_mem _
    · rintro rfl
      refine ⟨rfl, fun p hp => ?_⟩
      obtain ⟨i, hi, rfl⟩ := List.getElem_of_mem hp
      rw [List.getElem_zip]
  · rw [if_pos hlength]
    exact iff_of_false Bool.false_ne_true fun heq => hlength (congrArg List.length heq)

/-- A validated key accepts what its document is opened by. -/
lemma accepts_eq_opens {k : KeyDoc} (h : k.WellFormed) {t : String} (ht : t.isEmpty = false) :
    (k.config P).secret.accepts t (sha256Hex (utf8 t)) = k.opens P t := by
  have hdigest : sha256Hex (utf8 t) = hexDigest t := Sha256.digest_eq_hex _
  rw [Bool.eq_iff_iff, KeyDoc.opens, KeyDoc.config, hdigest, ht]
  rcases h.secret with ⟨henv, -⟩ | ⟨henv, hhash⟩
  · obtain ⟨envVar, henvVar⟩ := Option.isSome_iff_exists.1 henv
    simp only [henvVar, KeySecret.accepts, Bool.not_false, Bool.true_and, beq_iff_eq,
      Bool.and_eq_true, ctEq_iff, utf8_inj]
    cases hsecret : P.env envVar with
    | none => simp
    | some secret =>
        rw [Option.getD_some, Option.some.injEq]
        constructor
        · exact And.right
        · rintro rfl
          exact ⟨by rw [ht]; rfl, rfl⟩
  · obtain ⟨hash, hhash⟩ := Option.isSome_iff_exists.1 hhash
    simp [henv, hhash, KeySecret.accepts, ctEq_iff, utf8_inj]

lemma authenticate_eq (h : doc.WellFormed P) (t : String) :
    authenticate (doc.keys.map (KeyDoc.config P)) t =
      match doc.opened P (trim t) with
      | some auth => .ok auth
      | none => .error .invalidApiKey := by
  have hfind : findKey (doc.keys.map (KeyDoc.config P)) t =
      (doc.keys.find? (KeyDoc.opens P (trim t))).map (KeyDoc.config P) := by
    unfold findKey
    by_cases hempty : (trim t).isEmpty = true
    · have hnone : doc.keys.find? (KeyDoc.opens P (trim t)) = none := by
        refine List.find?_eq_none.2 fun k _ => ?_
        simp [KeyDoc.opens, hempty]
      rw [hnone]
      simp only [hempty, if_true, Option.map_none]
    · have hsome : (trim t).isEmpty = false := by simpa using hempty
      simp only [hsome, Bool.false_eq_true, if_false]
      rw [List.find?_map]
      exact congrArg _ (List.find?_congr fun k hk => accepts_eq_opens (h.key k hk) hsome)
  unfold authenticate ConfigDoc.opened
  rw [hfind]
  cases doc.keys.find? (KeyDoc.opens P (trim t)) <;> rfl

end Keys

/-! ## Callers -/

lemma parseBearer_bearer (s : String) :
    parseBearer (some ("Bearer " ++ s)) =
      if (trim s).isEmpty then .error .invalidApiKey else .ok (trim s) := by
  have hstrip : stripStart "Bearer " ("Bearer " ++ s) = some s := stripPrefix_append "Bearer " s
  unfold parseBearer
  simp only [Option.bind_eq_bind, Option.bind_some, hstrip, Option.orElse_some]
  by_cases hempty : (trim s).isEmpty
  · simp only [hempty, if_true]
  · simp only [hempty, Bool.false_eq_true, if_false]

lemma trim_of_parseBearer {header : Option String} {token : String}
    (h : parseBearer header = .ok token) : trim token = token ∧ token.isEmpty = false := by
  unfold parseBearer at h
  simp only [] at h
  split at h
  · rename_i t htoken
    obtain rfl : t = token := Except.ok.inj h
    obtain ⟨value, -, hrest⟩ := Option.bind_eq_some_iff.1 htoken
    obtain ⟨rest, -, hsome⟩ := Option.bind_eq_some_iff.1 hrest
    split at hsome
    · cases hsome
    · rename_i hempty
      obtain rfl := Option.some.inj hsome
      exact ⟨trim_trim rest, by simpa using hempty⟩
  · cases h

section Callers

variable {ρ : Type} {P : Platform} {doc : ConfigDoc} {w : Surroundings ρ}

lemma caller_eq (h : validate P doc = .ok w.runtime.config) (req : Request) :
    App.caller w req =
      match parseBearer req.authorization with
      | .ok token =>
          match doc.opened P token with
          | some auth => .ok auth
          | none => .error .invalidApiKey
      | .error e => .error e := by
  obtain ⟨hwf, hconfig⟩ := validate_ok_iff.1 h
  have hkeys : w.runtime.config.keys = doc.keys.map (KeyDoc.config P) := by
    rw [hconfig]
    rfl
  unfold App.caller
  rw [hkeys]
  cases hparse : parseBearer req.authorization with
  | error e => rfl
  | ok token =>
      simp only [bind, Except.bind]
      rw [authenticate_eq hwf, (trim_of_parseBearer hparse).1]

lemma opened_empty {t : String} (h : t.isEmpty) : doc.opened P t = none := by
  have hnone : doc.keys.find? (KeyDoc.opens P t) = none :=
    List.find?_eq_none.2 fun k _ => by simp [KeyDoc.opens, h]
  rw [ConfigDoc.opened, hnone, Option.map_none]

/-- What a bearer header comes to. -/
lemma caller_bearer (h : validate P doc = .ok w.runtime.config) (req : Request) {v : HeaderValue}
    {s : String} (hv : v.bytes = utf8 ("Bearer " ++ s)) (auth : AuthContext) :
    App.caller w (req.withAuthorization v) = .ok auth ↔
      isHeaderValue s ∧ doc.opened P (trim s) = some auth := by
  rw [caller_eq h, Request.withAuthorization, HeaderValue.toStr_of_text hv, isHeaderValue_bearer]
  by_cases hvisible : isHeaderValue s
  · simp only [hvisible, if_true, true_and]
    rw [parseBearer_bearer]
    by_cases hempty : (trim s).isEmpty
    · rw [if_pos hempty, opened_empty hempty]
      simp
    · rw [if_neg hempty]
      cases hopened : doc.opened P (trim s) <;> simp [hopened]
  · simp [hvisible, parseBearer]

/-- **Who is authenticated.**  A text sent as a bearer token authenticates the first key it opens
exactly if it is visible and, trimmed, opens the same; a token that opens no key is rejected; and
whoever is authenticated comes with the secret of his key, which is not empty. -/
theorem authenticates_iff (h : validate P doc = .ok w.runtime.config) (req : Request) :
    (∀ (v : HeaderValue) (s : String), v.bytes = utf8 ("Bearer " ++ s) →
      ((∀ auth, doc.opened P s = some auth →
          App.caller w (req.withAuthorization v) = .ok auth) ↔
        ∀ auth, doc.opened P s = some auth →
          isHeaderValue s ∧ doc.opened P (trim s) = some auth)) ∧
      (∀ token, parseBearer req.authorization = .ok token → doc.opened P token = none →
        App.caller w req = .error .invalidApiKey) ∧
      ∀ auth, App.caller w req = .ok auth →
        ∃ token k, parseBearer req.authorization = .ok token ∧
          doc.keys.find? (KeyDoc.opens P token) = some k ∧
          auth = { keyId := k.id, allowModels := k.allowModels } ∧
          ∀ envVar, k.keyEnv = some envVar → P.env envVar = some token ∧ token ≠ "" := by
  refine ⟨fun v s hv => forall_congr' fun auth => ?_, fun token htoken hnone => ?_,
    fun auth hauth => ?_⟩
  · rw [caller_bearer h req hv]
  · rw [caller_eq h, htoken]
    simp only [hnone]
  · rw [caller_eq h] at hauth
    cases hparse : parseBearer req.authorization with
    | error e =>
        rw [hparse] at hauth
        cases hauth
    | ok token =>
        rw [hparse] at hauth
        have hopened : doc.opened P token = some auth := by
          cases hopen : doc.opened P token with
          | none =>
              simp only [hopen] at hauth
              cases hauth
          | some auth' =>
              simp only [hopen] at hauth
              exact congrArg some (Except.ok.inj hauth)
        obtain ⟨k, hk, rfl⟩ := Option.map_eq_some_iff.1 hopened
        refine ⟨token, k, rfl, hk, rfl, fun envVar henv => ?_⟩
        have hopens : k.opens P token = true := List.find?_some hk
        simp only [KeyDoc.opens, henv, Bool.and_eq_true, beq_iff_eq] at hopens
        refine ⟨hopens.2, ?_⟩
        rintro rfl
        exact absurd hopens.1 (by decide)

end Callers

/-! ## A gateway with one secret -/

/-- An environment in which every variable holds the same. -/
def onlySecret (secret : String) : Platform :=
  { Reload.soloPlatform with env := fun _ => some secret }

/-- One key, with its secret in the environment. -/
def teamDoc : ConfigDoc :=
  Reload.soloDoc none
    [{ id := "team", keyEnv := some "INBOUND_A", keySha256 := none, allowModels := ["opus"],
       rateLimit := none }]

def teamWorld (secret : String) : Surroundings Unit :=
  { App.strayWorld with
    runtime :=
      { config :=
          Reload.soloConfig none
            [{ id := "team", secret := .plain secret, allowModels := ["opus"], rateLimit := none }]
        providers := ∅
        orchestrator := { resolver := ∅, recipes := ∅ } } }

lemma validate_team (secret : String) :
    validate (onlySecret secret) teamDoc = .ok (teamWorld secret).runtime.config := rfl

/-- The header that presents a visible secret. -/
def bearerHeader (secret : String) (h : isHeaderValue secret) : HeaderValue where
  bytes := utf8 ("Bearer " ++ secret)
  valid := by
    have hvisible : isHeaderValue ("Bearer " ++ secret) := by rwa [isHeaderValue_bearer]
    rw [← all_utf8_iff, List.all_eq_true] at hvisible
    intro b hb
    have hb := hvisible b hb
    simp only [Bool.or_eq_true, Bool.and_eq_true, decide_eq_true_eq, beq_iff_eq] at hb
    omega

/-- The secret of that key authenticates it. -/
theorem authenticates_iff_team :
    App.caller (teamWorld "token-a")
        (App.strayRequest.withAuthorization (bearerHeader "token-a" (by decide))) =
      .ok { keyId := "team", allowModels := ["opus"] } := by
  have hopened : teamDoc.opened (onlySecret "token-a") "token-a" =
      some { keyId := "team", allowModels := ["opus"] } := rfl
  have htrim : trim "token-a" = "token-a" := by decide +kernel
  have hauth := (authenticates_iff (validate_team "token-a") App.strayRequest).1
    (bearerHeader "token-a" (by decide)) "token-a" rfl
  rw [htrim] at hauth
  exact hauth.2 (fun auth h => ⟨by decide, h⟩) _ hopened

/-- A secret that ends in a space is configured, and no longer what is compared with it. -/
theorem spaced_secret_rejected :
    teamDoc.opened (onlySecret "token-a ") "token-a " =
        some { keyId := "team", allowModels := ["opus"] } ∧
      App.caller (teamWorld "token-a ")
          (App.strayRequest.withAuthorization (bearerHeader "token-a " (by decide))) ≠
        .ok { keyId := "team", allowModels := ["opus"] } := by
  refine ⟨rfl, fun h => ?_⟩
  have hbearer := (caller_bearer (validate_team "token-a ") App.strayRequest rfl _).1 h
  revert hbearer
  decide +kernel

end Moaray
