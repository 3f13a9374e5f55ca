import Moaray.Config.Identity
import Moaray.Gateway.Coherence

/-!
# What a reuse signature tells apart

The signature joins eleven inputs by tags such as `|key=`.  Its comment calls the fields
length-prefixed, but nothing counts or escapes them, and the five texts among them are free-form.

* `free`, `numeric` — the two parts of a signature: free-form texts, and numbers behind them.
* `ProviderInputs.Unambiguous` — no free-form text holds the tag before or after it.
* `signature_inj_iff` — the inputs whose signature no other inputs have.
* `Constructed` — which inputs the provider of a build was made from, however many reloads ago.
* `reuse_faithful_iff` — reuse hands out providers of the current inputs exactly for those;
  `stale_key_reused` is a rotated key the signature does not see.

The numeric part is always read back: it begins behind the last `d` of the text, and no number,
flag or printed option holds a bar.  What is left is a text of tagged free-form fields, which is
the situation of the library on joined fields, and its exact condition is the one here.

**Design.**  A reused provider may be older than the previous build: that build may have reused it
from the one before.  `Constructed` follows it back to the build that made it, and the theorem is
about any number of reloads, in any environments, as long as each signature was the same text.
-/

namespace Moaray

open Framework

/-! ## The fields -/

def digits (n : ℕ) : List Char := (toString n).toList

lemma digits_inj {m n : ℕ} : digits m = digits n ↔ m = n := by
  constructor
  · intro h
    have hread := congrArg (fun cs => Nat.ofDigitChars 10 cs 0) h
    simpa [digits, Nat.toString_eq_ofList_toDigits, Nat.ofDigitChars_ten_toDigits] using hread
  · rintro rfl
    rfl

lemma not_mem_digits {c : Char} (h : c.isDigit = false) (n : ℕ) : c ∉ digits n := by
  intro hc
  rw [digits, Nat.toString_eq_ofList_toDigits, String.toList_ofList] at hc
  rw [Nat.isDigit_of_mem_toDigits (by decide) (by decide) hc] at h
  cases h

/-- The `Display` form of a flag. -/
def flagText (b : Bool) : List Char := (toString b).toList

/-- Parts joined by colons. -/
def colonJoin (f : List Char) (gs : List (List Char)) : List Char :=
  join f (gs.map fun g => (":".toList, g))

/-- The field of a rate limit. -/
def rateText : Option RateLimit → List Char
  | some r => colonJoin (digits r.rps.toNat) [digits r.burst.toNat]
  | none => "none".toList

lemma tag_colon : Tag ':' ":".toList := ⟨[], rfl, List.not_mem_nil⟩

lemma colonJoin_inj {f f' : List Char} {gs gs' : List (List Char)} (h : colonJoin f' gs' =
    colonJoin f gs) (hf : ':' ∉ f) (hgs : ∀ g ∈ gs, ':' ∉ g) (hlength : gs'.length = gs.length) :
    f' = f ∧ gs' = gs := by
  have htags : ∀ p ∈ gs.map fun g => (":".toList, g), Tag ':' p.1 := by
    intro p hp
    obtain ⟨g, -, rfl⟩ := List.mem_map.1 hp
    exact tag_colon
  have hrest : ∀ p ∈ gs.map fun g => (":".toList, g), ':' ∉ p.2 := by
    intro p hp
    obtain ⟨g, hg, rfl⟩ := List.mem_map.1 hp
    exact hgs g hg
  have hsame : (gs'.map fun g => (":".toList, g)).map Prod.fst =
      (gs.map fun g => (":".toList, g)).map Prod.fst := by
    simp [Function.comp_def, hlength]
  obtain ⟨hf', hgs'⟩ := join_inj_of_not_mem htags hf hrest hsame h
  refine ⟨hf', ?_⟩
  have hsnd := congrArg (List.map Prod.snd) hgs'
  simpa [Function.comp_def] using hsnd

lemma not_mem_colonJoin {c : Char} (hc : c ≠ ':') {f : List Char} {gs : List (List Char)}
    (hf : c ∉ f) (hgs : ∀ g ∈ gs, c ∉ g) : c ∉ colonJoin f gs := by
  refine not_mem_join hf ?_
  intro p hp
  obtain ⟨g, hg, rfl⟩ := List.mem_map.1 hp
  refine ⟨?_, hgs g hg⟩
  simpa using hc

lemma flagText_inj {a b : Bool} : flagText a = flagText b ↔ a = b := by
  cases a <;> cases b <;> decide

lemma rateText_inj {a b : Option RateLimit} : rateText a = rateText b ↔ a = b := by
  have hnone : ∀ r : RateLimit, rateText (some r) ≠ "none".toList := by
    intro r h
    have hcolon : ':' ∈ rateText (some r) := by simp [rateText, colonJoin, join]
    rw [h] at hcolon
    revert hcolon
    decide
  constructor
  · intro h
    cases a with
    | none =>
        cases b with
        | none => rfl
        | some s => exact absurd h.symm (hnone s)
    | some r =>
        cases b with
        | none => exact absurd h (hnone r)
        | some s =>
            have hcolon : ∀ n, ':' ∉ digits n := not_mem_digits (by decide)
            obtain ⟨hrps, hburst⟩ := colonJoin_inj h (hcolon _) (by simp [hcolon]) rfl
            have hr : r.rps = s.rps := UInt32.toNat_inj.1 (digits_inj.1 hrps)
            have hb : r.burst = s.burst :=
              UInt32.toNat_inj.1 (digits_inj.1 (List.cons.inj hburst).1)
            cases r
            cases s
            simp_all
  · rintro rfl
    rfl

lemma debugOption_inj {a b : Option UInt32} :
    (debugOption a).toList = (debugOption b).toList ↔ a = b := by
  have hsome : ∀ n : UInt32, (debugOption (some n)).toList =
      "Some(".toList ++ (digits n.toNat ++ ")".toList) := by
    intro n
    simp [debugOption, digits, String.toList_append]
  have hnone : ∀ n : UInt32, (debugOption (some n)).toList ≠ (debugOption none).toList := by
    intro n h
    rw [hsome] at h
    have hhead := congrArg List.head? h
    revert hhead
    simp [debugOption]
  constructor
  · intro h
    cases a with
    | none =>
        cases b with
        | none => rfl
        | some n => exact absurd h.symm (hnone n)
    | some m =>
        cases b with
        | none => exact absurd h (hnone m)
        | some n =>
            rw [hsome, hsome] at h
            have hdigits := List.append_cancel_right (List.append_cancel_left h)
            rw [UInt32.toNat_inj.1 (digits_inj.1 hdigits)]
  · rintro rfl
    rfl

/-- The field of the retry policy. -/
def retryText (r : RetryConfig) : List Char :=
  colonJoin (flagText r.enabled) [digits r.maxRetries.toNat, digits r.backoffMs.toNat]

/-- The field of the breaker thresholds. -/
def breakerText (b : BreakerConfig) : List Char :=
  colonJoin (digits b.failureThreshold.toNat)
    [digits b.openMs.toNat, digits b.halfOpenSuccesses.toNat]

lemma not_mem_flagText {c : Char} (h : c ∉ "truefalse".toList) (b : Bool) : c ∉ flagText b := by
  intro hc
  refine h ?_
  cases b with
  | true => exact List.mem_append_left "false".toList hc
  | false => exact List.mem_append_right "true".toList hc

lemma retryText_inj {a b : RetryConfig} : retryText a = retryText b ↔ a = b := by
  have hcolon : ∀ n, ':' ∉ digits n := not_mem_digits (by decide)
  constructor
  · intro h
    obtain ⟨henabled, hrest⟩ := colonJoin_inj h (not_mem_flagText (by decide) b.enabled)
      (by simp [hcolon]) rfl
    obtain ⟨hmax, hbackoff⟩ : a.maxRetries = b.maxRetries ∧ a.backoffMs = b.backoffMs := by
      simpa [digits_inj, UInt32.toNat_inj, UInt64.toNat_inj] using hrest
    cases a
    cases b
    simp_all [flagText_inj]
  · rintro rfl
    rfl

lemma breakerText_inj {a b : BreakerConfig} : breakerText a = breakerText b ↔ a = b := by
  have hcolon : ∀ n, ':' ∉ digits n := not_mem_digits (by decide)
  constructor
  · intro h
    obtain ⟨hfirst, hrest⟩ := colonJoin_inj h (hcolon b.failureThreshold.toNat)
      (by simp [hcolon]) rfl
    obtain ⟨hopen, hhalf⟩ : a.openMs = b.openMs ∧ a.halfOpenSuccesses = b.halfOpenSuccesses := by
      simpa [digits_inj, UInt32.toNat_inj, UInt64.toNat_inj] using hrest
    cases a
    cases b
    simp_all [digits_inj, UInt32.toNat_inj]
  · rintro rfl
    rfl

section NotMem

variable {c : Char} (hdigit : c.isDigit = false)

include hdigit

lemma not_mem_rateText (hc : c ∉ ":none".toList) (r : Option RateLimit) : c ∉ rateText r := by
  cases r with
  | none => exact fun h => hc (List.mem_cons_of_mem _ h)
  | some r =>
      have hcolon : c ≠ ':' := fun h => hc (h ▸ List.mem_cons_self ..)
      exact not_mem_colonJoin hcolon (not_mem_digits hdigit _) (by simp [not_mem_digits hdigit])

lemma not_mem_debugOption (hc : c ∉ "Some()None".toList) (m : Option UInt32) :
    c ∉ (debugOption m).toList := by
  cases m with
  | none => exact fun h => hc (List.mem_append_right "Some()".toList h)
  | some n =>
      intro h
      simp only [debugOption, String.toList_append, List.mem_append] at h
      rcases h with (h | h) | h
      · exact hc ((by decide : "Some(".toList ⊆ "Some()None".toList) h)
      · exact not_mem_digits hdigit _ h
      · exact hc ((by decide : ")".toList ⊆ "Some()None".toList) h)

lemma not_mem_retryText (hc : c ∉ ":truefalse".toList) (r : RetryConfig) : c ∉ retryText r := by
  have hcolon : c ≠ ':' := fun h => hc (h ▸ List.mem_cons_self ..)
  have hflag : c ∉ "truefalse".toList := fun h => hc (List.mem_cons_of_mem _ h)
  exact not_mem_colonJoin hcolon (not_mem_flagText hflag _) (by simp [not_mem_digits hdigit])

lemma not_mem_breakerText (hcolon : c ≠ ':') (b : BreakerConfig) : c ∉ breakerText b :=
  not_mem_colonJoin hcolon (not_mem_digits hdigit _) (by simp [not_mem_digits hdigit])

end NotMem

/-! ## The signature, cut into its parts -/

namespace ProviderInputs

variable {i j : ProviderInputs}

/-- The free-form fields behind the URL, with their tags. -/
def freeFields (i : ProviderInputs) : List (List Char × List Char) :=
  [("|keyenv=".toList, i.apiKeyEnv.toList), ("|key=".toList, i.apiKey.toList),
    ("|sid=".toList, i.stateKey.toList), ("|uid=".toList, i.upstreamId.toList)]

def free (i : ProviderInputs) : List Char := join i.baseUrl.toList i.freeFields

/-- The fields of numbers behind `default_max_tokens`, with their tags. -/
def numericFields (i : ProviderInputs) : List (List Char × List Char) :=
  [("|retry=".toList, retryText i.retry), ("|rl=".toList, rateText i.rateLimit),
    ("|mc=".toList, (debugOption i.maxConcurrency).toList), ("|brk=".toList, breakerText i.breaker)]

def numeric (i : ProviderInputs) : List Char :=
  join (digits i.defaultMaxTokens.toNat) i.numericFields

/-- No free-form text holds the tag before or after it. -/
def Unambiguous (i : ProviderInputs) : Prop := Clear i.baseUrl.toList i.freeFields

/-- A letter that no number, flag or `Debug` form has. -/
lemma not_mem_numericFields {c : Char} (hdigit : c.isDigit = false)
    (hc : c ∉ ":truefalsenoneSome()None".toList) : ∀ p ∈ i.numericFields, c ∉ p.2 := by
  have hsub : ∀ t : List Char, t ⊆ ":truefalsenoneSome()None".toList → c ∉ t :=
    fun t ht h => hc (ht h)
  intro p hp
  simp only [numericFields, List.mem_cons, List.not_mem_nil, or_false] at hp
  rcases hp with rfl | rfl | rfl | rfl
  · exact not_mem_retryText hdigit (hsub _ (by decide)) _
  · exact not_mem_rateText hdigit (hsub _ (by decide)) _
  · exact not_mem_debugOption hdigit (hsub _ (by decide)) _
  · exact not_mem_breakerText hdigit (fun h => hc (h ▸ List.mem_cons_self ..)) _

lemma tags_numericFields : ∀ p ∈ i.numericFields, Tag '|' p.1 := by
  intro p hp
  simp only [numericFields, List.mem_cons, List.not_mem_nil, or_false] at hp
  rcases hp with rfl | rfl | rfl | rfl <;> exact ⟨_, rfl, by decide⟩

/-- No `d` behind the tag of `default_max_tokens`. -/
lemma not_mem_numeric : 'd' ∉ i.numeric := by
  refine not_mem_join (not_mem_digits (by decide) _) fun p hp => ⟨?_, ?_⟩
  · simp only [numericFields, List.mem_cons, List.not_mem_nil, or_false] at hp
    rcases hp with rfl | rfl | rfl | rfl <;> dsimp only <;> decide
  · exact not_mem_numericFields (by decide) (by decide) p hp

/-- The numbers are read back from the numeric part, all of them. -/
lemma numeric_inj (h : j.numeric = i.numeric) :
    j.defaultMaxTokens = i.defaultMaxTokens ∧ j.retry = i.retry ∧ j.rateLimit = i.rateLimit ∧
      j.maxConcurrency = i.maxConcurrency ∧ j.breaker = i.breaker := by
  have hbar : ∀ p ∈ i.numericFields, '|' ∉ p.2 :=
    not_mem_numericFields (by decide) (by decide)
  have hsame : j.numericFields.map Prod.fst = i.numericFields.map Prod.fst := rfl
  obtain ⟨hdmt, hfields⟩ :=
    join_inj_of_not_mem tags_numericFields (not_mem_digits (by decide) _) hbar hsame h
  simp only [numericFields, List.cons.injEq, Prod.mk.injEq, true_and, and_true] at hfields
  obtain ⟨hretry, hrate, hcap, hbreaker⟩ := hfields
  exact ⟨UInt32.toNat_inj.1 (digits_inj.1 hdmt), retryText_inj.1 hretry, rateText_inj.1 hrate,
    debugOption_inj.1 hcap, breakerText_inj.1 hbreaker⟩

lemma tags_freeFields : ∀ p ∈ i.freeFields, Tag '|' p.1 := by
  intro p hp
  simp only [freeFields, List.mem_cons, List.not_mem_nil, or_false] at hp
  rcases hp with rfl | rfl | rfl | rfl <;> exact ⟨_, rfl, by decide⟩

lemma providerSignature_toList (i : ProviderInputs) :
    (providerSignature i).toList = ("pt=" ++ i.providerType.debug ++ "|url=").toList ++
      (i.free ++ ("|dmt=".toList ++ i.numeric)) := by
  obtain ⟨p, url, env, key, sid, uid, dmt, retry, rate, cap, brk⟩ := i
  unfold providerSignature
  dsimp only
  cases rate <;>
    simp only [String.toList_append, free, numeric, freeFields, numericFields, join, retryText,
      breakerText, rateText, colonJoin, digits, flagText, List.map_cons, List.map_nil,
      List.append_assoc]

/-- The provider type is read back from the head of the signature. -/
lemma debug_append_inj {p q : ProviderType} {a b : List Char}
    (h : ("pt=" ++ p.debug ++ "|url=").toList ++ a = ("pt=" ++ q.debug ++ "|url=").toList ++ b) :
    p = q ∧ a = b := by
  have hne : ∀ a b : List Char, ("pt=" ++ ProviderType.openaiCompat.debug ++ "|url=").toList ++ a ≠
      ("pt=" ++ ProviderType.anthropic.debug ++ "|url=").toList ++ b := by
    intro a b hab
    have hfourth := congrArg (fun cs : List Char => cs[3]?) hab
    revert hfourth
    simp [ProviderType.debug]
  cases p with
  | openaiCompat =>
      cases q with
      | openaiCompat => exact ⟨rfl, List.append_cancel_left h⟩
      | anthropic => exact absurd h (hne a b)
  | anthropic =>
      cases q with
      | openaiCompat => exact absurd h.symm (hne b a)
      | anthropic => exact ⟨rfl, List.append_cancel_left h⟩

/-- Two signatures are the same text exactly when everything but the free-form texts agrees and
those join to the same text. -/
theorem providerSignature_eq_iff :
    providerSignature j = providerSignature i ↔
      j.providerType = i.providerType ∧ j.free = i.free ∧
        j.defaultMaxTokens = i.defaultMaxTokens ∧ j.retry = i.retry ∧ j.rateLimit = i.rateLimit ∧
        j.maxConcurrency = i.maxConcurrency ∧ j.breaker = i.breaker := by
  have hdmt : "|dmt=".toList = '|' :: 'd' :: "mt=".toList := by decide
  constructor
  · intro h
    have htext := congrArg String.toList h
    rw [providerSignature_toList, providerSignature_toList] at htext
    obtain ⟨htype, hrest⟩ := debug_append_inj htext
    -- The last `d` of the text is the one of `|dmt=`.
    have hcut : (j.free ++ ['|']) ++ 'd' :: ("mt=".toList ++ j.numeric) =
        (i.free ++ ['|']) ++ 'd' :: ("mt=".toList ++ i.numeric) := by
      rw [hdmt] at hrest
      simpa using hrest
    have hno : ∀ k : ProviderInputs, 'd' ∉ "mt=".toList ++ k.numeric := by
      intro k hk
      rcases List.mem_append.1 hk with hk | hk
      · revert hk
        decide
      · exact not_mem_numeric hk
    obtain ⟨hfree, hnumeric⟩ := last_inj (hno j) (hno i) hcut
    exact ⟨htype, List.append_cancel_right hfree, numeric_inj (List.append_cancel_left hnumeric)⟩
  · rintro ⟨htype, hfree, hdmt', hretry, hrate, hcap, hbreaker⟩
    have hnumeric : j.numeric = i.numeric := by
      simp only [numeric, numericFields, hdmt', hretry, hrate, hcap, hbreaker]
    rw [← String.toList_inj, providerSignature_toList, providerSignature_toList, htype, hfree,
      hnumeric]

/-- No other inputs have the signature of `i` exactly when `i` is unambiguous.  The numeric fields
never matter, since they hold no bar. -/
theorem signature_inj_iff :
    (∀ j, providerSignature j = providerSignature i → j = i) ↔ i.Unambiguous := by
  unfold Unambiguous
  rw [← join_inj_iff tags_freeFields]
  constructor
  · intro huniq f rest hsame heq
    obtain ⟨env, key, sid, uid, rfl⟩ : ∃ env key sid uid, rest = [("|keyenv=".toList, env),
        ("|key=".toList, key), ("|sid=".toList, sid), ("|uid=".toList, uid)] := by
      obtain ⟨⟨-, env⟩, rest₁, rfl, rfl, h₁⟩ := List.map_eq_cons_iff.1 hsame
      obtain ⟨⟨-, key⟩, rest₂, rfl, rfl, h₂⟩ := List.map_eq_cons_iff.1 h₁
      obtain ⟨⟨-, sid⟩, rest₃, rfl, rfl, h₃⟩ := List.map_eq_cons_iff.1 h₂
      obtain ⟨⟨-, uid⟩, rest₄, rfl, rfl, h₄⟩ := List.map_eq_cons_iff.1 h₃
      obtain rfl : rest₄ = [] := List.map_eq_nil_iff.1 h₄
      exact ⟨env, key, sid, uid, rfl⟩
    let j : ProviderInputs :=
      { i with
        baseUrl := String.ofList f, apiKeyEnv := String.ofList env, apiKey := String.ofList key,
        stateKey := String.ofList sid, upstreamId := String.ofList uid }
    have hfree : j.free = i.free := by
      simpa [j, free, freeFields] using heq
    have hj : j = i := huniq j (providerSignature_eq_iff.2 ⟨rfl, hfree, rfl, rfl, rfl, rfl, rfl⟩)
    have hf : j.baseUrl.toList = i.baseUrl.toList := by rw [hj]
    have hfields : j.freeFields = i.freeFields := by rw [hj]
    refine ⟨?_, ?_⟩
    · simpa [j] using hf
    · simpa [j, freeFields] using hfields
  · intro hread j hsig
    obtain ⟨htype, hfree, hdmt, hretry, hrate, hcap, hbreaker⟩ := providerSignature_eq_iff.1 hsig
    have hsame : j.freeFields.map Prod.fst = i.freeFields.map Prod.fst := rfl
    obtain ⟨hurl, hfields⟩ := hread j.baseUrl.toList j.freeFields hsame hfree
    simp only [freeFields, List.cons.injEq, Prod.mk.injEq, true_and, and_true,
      String.toList_inj] at hfields
    obtain ⟨henv, hkey, hsid, huid⟩ := hfields
    cases j
    simp_all [String.toList_inj]

end ProviderInputs

/-! ## What a reused provider was made from -/

/-- The adapter made from some inputs. -/
def ProviderInputs.inner (i : ProviderInputs) : InnerProvider :=
  match i.providerType with
  | .openaiCompat =>
      .openai { upstreamId := i.upstreamId, baseUrl := i.baseUrl, apiKey := i.apiKey }
  | .anthropic =>
      .anthropic
        { upstreamId := i.upstreamId, baseUrl := i.baseUrl, apiKey := i.apiKey,
          defaultMaxTokens := i.defaultMaxTokens }

/-- The inputs of a model of a configuration in an environment. -/
def currentInputs (env : String → Option String) (config : RuntimeConfig) (m : ModelConfig) :
    ProviderInputs :=
  ProviderInputs.of m ((env m.apiKeyEnv).getD "") config.server

/-- The build `providers` has `b` for `name`, and the build that made `b`, this one or an earlier
one whose `b` every build since has kept, made it from the inputs `j`. -/
inductive Constructed :
    Table String BuiltProvider → String → BuiltProvider → ProviderInputs → Prop
  | fresh {ρ : Type} {env : String → Option String} {config : RuntimeConfig}
      {stateful : StatefulState ρ} {prev : Option (Table String BuiltProvider)} {next : ℕ}
      {build : Build} {name : String} {m : ModelConfig} {b : BuiltProvider}
      (hbuild : buildProvidersWith env config stateful prev next = .ok build)
      (hm : config.models[name]? = some m)
      (hnew : reusable prev name (providerSignature (currentInputs env config m)) = none)
      (hb : build.providers[name]? = some b) :
      Constructed build.providers name b (currentInputs env config m)
  | reused {ρ : Type} {env : String → Option String} {config : RuntimeConfig}
      {stateful : StatefulState ρ} {prev : Table String BuiltProvider} {next : ℕ}
      {build : Build} {name : String} {m : ModelConfig} {b : BuiltProvider} {j : ProviderInputs}
      (hprev : Constructed prev name b j)
      (hbuild : buildProvidersWith env config stateful (some prev) next = .ok build)
      (hm : config.models[name]? = some m)
      (hreuse : reusable (some prev) name (providerSignature (currentInputs env config m)) =
        some b) :
      Constructed build.providers name b j

section Reuse

variable {ρ : Type} {env : String → Option String} {config : RuntimeConfig}
  {stateful : StatefulState ρ} {name : String} {m : ModelConfig} {b : BuiltProvider}
  {prev : Option (Table String BuiltProvider)} {providers : Table String BuiltProvider}
  {i j : ProviderInputs} {next : ℕ} {build : Build}

lemma innerProvider_eq :
    innerProvider m ((env m.apiKeyEnv).getD "") config.server.defaultMaxTokens =
      (currentInputs env config m).inner := by
  unfold innerProvider ProviderInputs.inner
  cases h : m.providerType <;> simp [currentInputs, ProviderInputs.of, h]

/-- A model off the reuse path gets a provider of its current inputs. -/
lemma made_of_fresh (hbuild : buildProvidersWith env config stateful prev next = .ok build)
    (hm : config.models[name]? = some m)
    (hnew : reusable prev name (providerSignature (currentInputs env config m)) = none)
    (hb : build.providers[name]? = some b) :
    b.signature = providerSignature (currentInputs env config m) ∧
      b.ref.provider.inner = (currentInputs env config m).inner ∧
      b.ref.provider.retry = (currentInputs env config m).retry := by
  obtain ⟨b', hb', hsig, horigin⟩ := buildProvidersWith_ok hbuild hm
  obtain rfl : b' = b := Option.some.inj (hb'.symm.trans hb)
  refine ⟨hsig, ?_⟩
  rcases horigin with ⟨p, rfl, hp⟩ | ⟨-, hretry, hinner⟩
  · -- The previous build's provider with this signature would have been reused.
    have hreuse : reusable (some p) name (providerSignature (currentInputs env config m)) =
        some b' := by
      simpa [reusable, hp, Option.filter_eq_some_iff, currentInputs] using hsig
    rw [hnew] at hreuse
    cases hreuse
  · exact ⟨hinner.trans innerProvider_eq, hretry⟩

/-- A provider is what its inputs make, and carries their signature. -/
lemma Constructed.made (h : Constructed providers name b j) :
    b.signature = providerSignature j ∧ b.ref.provider.inner = j.inner ∧
      b.ref.provider.retry = j.retry := by
  induction h with
  | fresh hbuild hm hnew hb => exact made_of_fresh hbuild hm hnew hb
  | reused _ _ _ _ ih => exact ih

/-- What reuse promises for a model with the inputs `i`, after any previous builds: the provider
handed out was made from `i`, like the one of a full rebuild. -/
def ReuseFaithful (ρ : Type) (i : ProviderInputs) : Prop :=
  ∀ (env : String → Option String) (config : RuntimeConfig) (stateful : StatefulState ρ)
    (prev : Table String BuiltProvider) (next : ℕ) (build : Build) (name : String)
    (m : ModelConfig) (b : BuiltProvider) (j : ProviderInputs),
    config.models[name]? = some m → currentInputs env config m = i →
    buildProvidersWith env config stateful (some prev) next = .ok build →
    reusable (some prev) name (providerSignature i) = some b → Constructed prev name b j →
    build.providers[name]? = some b ∧ j = i ∧
      ∀ next' full, buildProvidersWith env config stateful none next' = .ok full →
        ∃ b', full.providers[name]? = some b' ∧
          b'.ref.provider.inner = b.ref.provider.inner ∧
          b'.ref.provider.retry = b.ref.provider.retry

/-- Reuse is faithful when no other inputs have the signature. -/
lemma reuseFaithful_of_inj (h : ∀ j, providerSignature j = providerSignature i → j = i) :
    ReuseFaithful ρ i := by
  rintro env config stateful prev next build name m b j hm rfl hbuild hreuse hmade
  obtain ⟨hsig, -⟩ := reusable_eq_some hreuse
  obtain ⟨hsig', hinner, hretry⟩ := hmade.made
  obtain rfl : j = currentInputs env config m := h j (hsig'.symm.trans hsig)
  refine ⟨buildProvidersWith_reuses hbuild hm hreuse, rfl, ?_⟩
  intro next' full hfull
  obtain ⟨b', hb', -⟩ := buildProvidersWith_ok hfull hm
  obtain ⟨-, hinner', hretry'⟩ := made_of_fresh hfull hm rfl hb'
  exact ⟨b', hb', hinner'.trans hinner.symm, hretry'.trans hretry.symm⟩

/-- Equal signatures mean equal inputs, and reuse hands out providers of the current inputs,
exactly when no free-form text of the inputs holds the tag before or after it. -/
theorem reuse_faithful_iff (i : ProviderInputs) :
    ((∀ j, providerSignature j = providerSignature i → j = i) ∧ ReuseFaithful ρ i) ↔
      i.Unambiguous := by
  rw [← ProviderInputs.signature_inj_iff]
  exact ⟨fun h => h.1, fun h => ⟨h, reuseFaithful_of_inj h⟩⟩

end Reuse

/-! ### A rotated key -/

/-- A model whose upstream label is free to choose. -/
def labelled (upstreamId : String) : ModelDoc :=
  { barModel "opus" "https://host/v1" "K" with upstreamId := some upstreamId }

def labelDoc (upstreamId : String) : ConfigDoc where
  keys := []
  models := [labelled upstreamId]

def labelConfig (upstreamId : String) : RuntimeConfig := (labelDoc upstreamId).config barPlatform

def envK (key : String) : String → Option String := fun name => if name = "K" then some key else none

def longLabel : String := "U1|sid=openai-compat|https://host/v1|K|uid=U2"

def rotatedKey : String := "K1|sid=openai-compat|https://host/v1|K|uid=U1"

def staleInputs : ProviderInputs :=
  currentInputs (envK "K1") (labelConfig longLabel) (labelled longLabel).config

/-- The inputs after it: the label is shortened and the key rotated. -/
def rotatedInputs : ProviderInputs :=
  currentInputs (envK rotatedKey) (labelConfig "U2") (labelled "U2").config

lemma validate_label : validate barPlatform (labelDoc longLabel) = .ok (labelConfig longLabel) :=
  rfl

lemma validate_label_short : validate barPlatform (labelDoc "U2") = .ok (labelConfig "U2") := rfl

lemma getElem?_label (upstreamId : String) :
    (labelConfig upstreamId).models["opus"]? = some (labelled upstreamId).config :=
  Table.getElem?_insert_same ∅ "opus" _

/-- Between two validated configurations the signature stays the same text although the label
and the key of an upstream have changed, and the provider of the old key is reused. -/
theorem stale_key_reused :
    Validated barPlatform (labelConfig longLabel) ∧ Validated barPlatform (labelConfig "U2") ∧
      providerSignature staleInputs = providerSignature rotatedInputs ∧
      staleInputs.apiKey ≠ rotatedInputs.apiKey ∧ ¬ ReuseFaithful Unit rotatedInputs := by
  have hsig : providerSignature staleInputs = providerSignature rotatedInputs := by
    decide +kernel
  have hkey : staleInputs.apiKey ≠ rotatedInputs.apiKey := by decide
  refine ⟨⟨_, validate_label⟩, ⟨_, validate_label_short⟩, hsig, hkey, ?_⟩
  intro hfaithful
  let slots : StatefulState Unit := StatefulState.default
  obtain ⟨old, hold⟩ := Reload.build_ensured_isOk ⟨_, validate_label⟩ (envK "K1") slots none 0
  obtain ⟨b, hb, hbsig, -⟩ := buildProvidersWith_ok hold (getElem?_label longLabel)
  have hmade : Constructed old.providers "opus" b staleInputs :=
    .fresh hold (getElem?_label longLabel) rfl hb
  obtain ⟨new, hnew⟩ := Reload.build_ensured_isOk ⟨_, validate_label_short⟩ (envK rotatedKey)
    (slots.ensureForConfig (labelConfig longLabel)) (some old.providers) old.next
  have hreuse : reusable (some old.providers) "opus" (providerSignature rotatedInputs) = some b := by
    have hbsig' : b.signature = providerSignature rotatedInputs := hbsig.trans hsig
    simp [reusable, hb, hbsig']
  obtain ⟨-, hsame, -⟩ := hfaithful _ _ _ _ _ _ _ _ _ _ (getElem?_label "U2") rfl hnew hreuse hmade
  exact hkey (congrArg ProviderInputs.apiKey hsame)

end Moaray
