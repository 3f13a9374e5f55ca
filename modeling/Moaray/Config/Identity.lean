import Moaray.Config.Accepts
import Moaray.Framework.Tagged

/-!
# State keys as upstream identities

A state key joins the provider type, the base URL and the name of the key variable with `|`, and
escapes nothing.  Neither the URL nor the name is kept from holding a `|` itself, so the cut
between the two can be lost.

* `cons_append_inj` — when two joins at a separator are the same text.
* `deriveStateKey_eq_iff` — when two identities have one key.
* `state_keys_identify` — validated models of one key are of one identity unless their texts can be
  cut in two ways; `two_accounts_share_key` is a validated configuration where they can.

The key decides which models share a circuit breaker, a rate limit and a pool of permits.  Models
of one key are also held to the same limits by validation, so two accounts whose keys coincide
share their governance without anything being reported.

**Design.**  The provider type is one of two fixed words without a bar, so it is always read back;
what can be cut in two ways is the URL and the variable behind it.  `CutsLater` says that one of
the two models is cut at a bar inside the other's URL, and this is the only way.
-/

namespace Moaray

open Framework Validate

/-- Two joins at a separator are the same text when the parts agree, or one of the cuts is at a
separator inside the other's part. -/
lemma cons_append_inj {α : Type*} {s : α} {a b c d : List α} :
    a ++ s :: b = c ++ s :: d ↔
      (a = c ∧ b = d) ∨ (∃ w, c = a ++ s :: w ∧ b = w ++ s :: d) ∨
        ∃ w, a = c ++ s :: w ∧ d = w ++ s :: b := by
  have htag : Tag s [s] := ⟨[], rfl, List.not_mem_nil⟩
  simpa using htag.append_inj (a := a) (b := b) (c := c) (d := d)

/-- Two pairs of strings joined by `|`, the separator of the state key, agree just when the pairs do
or one of the bars stands inside a part of the other pair. -/
lemma join_inj {a b c d : String} :
    a ++ "|" ++ b = c ++ "|" ++ d ↔
      (a = c ∧ b = d) ∨ (∃ w, c = a ++ "|" ++ w ∧ b = w ++ "|" ++ d) ∨
        ∃ w, a = c ++ "|" ++ w ∧ d = w ++ "|" ++ b := by
  have htoList : ∀ x y : String, (x ++ "|" ++ y).toList = x.toList ++ '|' :: y.toList := by
    intro x y
    simp [String.toList_append]
  have hexists : ∀ x y z v : String,
      (∃ w, x = y ++ "|" ++ w ∧ z = w ++ "|" ++ v) ↔
        ∃ w : List Char, x.toList = y.toList ++ '|' :: w ∧ z.toList = w ++ '|' :: v.toList := by
    intro x y z v
    constructor
    · rintro ⟨w, rfl, rfl⟩
      exact ⟨w.toList, htoList _ _, htoList _ _⟩
    · rintro ⟨w, hx, hz⟩
      refine ⟨String.ofList w, String.toList_inj.1 ?_, String.toList_inj.1 ?_⟩
      · rw [htoList, String.toList_ofList, hx]
      · rw [htoList, String.toList_ofList, hz]
  rw [hexists, hexists, ← String.toList_inj, htoList, htoList, cons_append_inj,
    String.toList_inj, String.toList_inj]

/-- The second model's URL continues the first one's by a `|`, and the first one's key variable
makes up for it: one text, cut in two places. -/
def CutsLater (m m' : ModelConfig) : Prop :=
  ∃ w, m'.baseUrl = m.baseUrl ++ "|" ++ w ∧ m.apiKeyEnv = w ++ "|" ++ m'.apiKeyEnv

/-- Two models are of one upstream: one provider type, one URL and one key variable. -/
def SameUpstream (m m' : ModelConfig) : Prop :=
  m.providerType = m'.providerType ∧ m.baseUrl = m'.baseUrl ∧ m.apiKeyEnv = m'.apiKeyEnv

/-- Two identities have one state key when they are the same, or of one provider type and cut at
different separators. -/
lemma deriveStateKey_eq_iff {m m' : ModelConfig} :
    ModelConfig.deriveStateKey m.providerType m.baseUrl m.apiKeyEnv =
        ModelConfig.deriveStateKey m'.providerType m'.baseUrl m'.apiKeyEnv ↔
      SameUpstream m m' ∨
        m.providerType = m'.providerType ∧ (CutsLater m m' ∨ CutsLater m' m) := by
  have hsplit : ∀ (p : ProviderType) (url env : String),
      ModelConfig.deriveStateKey p url env = (p.asStr ++ "|") ++ (url ++ "|" ++ env) := by
    intro p url env
    simp [ModelConfig.deriveStateKey, String.append_assoc]
  have htype : ModelConfig.deriveStateKey m.providerType m.baseUrl m.apiKeyEnv =
      ModelConfig.deriveStateKey m'.providerType m'.baseUrl m'.apiKeyEnv →
      m.providerType = m'.providerType := by
    intro h
    have hhead := congrArg (fun key : String => key.toList.head?) h
    revert hhead
    cases m.providerType <;> cases m'.providerType <;>
      simp [ModelConfig.deriveStateKey, ProviderType.asStr, String.toList_append]
  by_cases hp : m.providerType = m'.providerType
  · rw [hsplit, hsplit, hp, String.append_right_inj, join_inj]
    unfold SameUpstream CutsLater
    simp only [hp, true_and]
  · refine ⟨fun h => absurd (htype h) hp, ?_⟩
    rintro (h | h)
    · exact absurd h.1 hp
    · exact absurd h.1 hp

lemma CutsLater.baseUrl_ne {m m' : ModelConfig} (h : CutsLater m m') :
    m.baseUrl ≠ m'.baseUrl := by
  obtain ⟨w, hurl, -⟩ := h
  intro heq
  have hlength := congrArg String.length (heq.trans hurl)
  simp only [String.length_append] at hlength
  have hbar : "|".length = 1 := rfl
  omega

/-! ## Validated models -/

/-- In a validated configuration one state key means one upstream, exactly when the texts of the
two models cannot be cut in two ways. -/
theorem state_keys_identify {P : Platform} {config : RuntimeConfig} (h : Validated P config)
    {m m' : ModelConfig} (hm : m ∈ Table.rows config.models)
    (hm' : m' ∈ Table.rows config.models) :
    (m.stateKey = m'.stateKey ↔ SameUpstream m m') ↔
      ¬ (m.providerType = m'.providerType ∧ (CutsLater m m' ∨ CutsLater m' m)) := by
  obtain ⟨doc, hdoc⟩ := h
  obtain ⟨hwf, rfl⟩ := validate_ok_iff.1 hdoc
  have hkeys := hwf.describes.stateKeys
  rw [hkeys m hm, hkeys m' hm', deriveStateKey_eq_iff]
  have happart : m.providerType = m'.providerType ∧ (CutsLater m m' ∨ CutsLater m' m) →
      ¬ SameUpstream m m' := by
    rintro ⟨-, hcut | hcut⟩ hsame
    · exact hcut.baseUrl_ne hsame.2.1
    · exact hcut.baseUrl_ne hsame.2.1.symm
  tauto

/-! ### Two accounts with one key -/

def barPlatform : Platform where
  env _ := none
  urlScheme _ := .ok "https"
  toLowercase s := String.ofList (s.toList.map Char.toLower)
  displayPrice _ := ""

def barModel (name baseUrl apiKeyEnv : String) : ModelDoc where
  name := name
  providerType := .openaiCompat
  baseUrl := baseUrl
  apiKeyEnv := apiKeyEnv
  upstreamId := none
  rateLimit := none
  maxConcurrency := none
  pricePromptPerMtokUsd := none
  priceCompletionPerMtokUsd := none

/-- The URL of the second model ends in what the first one's key variable begins with; the third
model is an alias of the first. -/
def barDoc : ConfigDoc where
  keys := []
  models :=
    [barModel "a" "https://host/v1" "B|C", barModel "b" "https://host/v1|B" "C",
      barModel "c" "https://host/v1/" "B|C"]

def barConfig : RuntimeConfig := barDoc.config barPlatform

lemma validate_bar : validate barPlatform barDoc = .ok barConfig := rfl

lemma rows_bar :
    Table.rows barConfig.models =
      [(barModel "a" "https://host/v1" "B|C").config, (barModel "b" "https://host/v1|B" "C").config,
        (barModel "c" "https://host/v1/" "B|C").config] := rfl

/-- A validated configuration in which two URLs and two key variables make one state key. -/
theorem two_accounts_share_key :
    ¬ ∀ (P : Platform) (config : RuntimeConfig), Validated P config →
      ∀ m ∈ Table.rows config.models, ∀ m' ∈ Table.rows config.models,
        (m.stateKey = m'.stateKey ↔ SameUpstream m m') := by
  intro h
  have hiff := h barPlatform barConfig ⟨_, validate_bar⟩
    (barModel "a" "https://host/v1" "B|C").config (by simp [rows_bar])
    (barModel "b" "https://host/v1|B" "C").config (by simp [rows_bar])
  have hkey : (barModel "a" "https://host/v1" "B|C").config.stateKey =
      (barModel "b" "https://host/v1|B" "C").config.stateKey := by decide
  have hurl := (hiff.1 hkey).2.1
  exact absurd hurl (by decide)

theorem state_keys_identify_alias :
    ∃ m ∈ Table.rows barConfig.models, ∃ m' ∈ Table.rows barConfig.models,
      m.name ≠ m'.name ∧ m.stateKey = m'.stateKey := by
  refine ⟨(barModel "a" "https://host/v1" "B|C").config, by simp [rows_bar],
    (barModel "c" "https://host/v1/" "B|C").config, by simp [rows_bar], by decide, ?_⟩
  refine (state_keys_identify ⟨barDoc, validate_bar⟩ (by simp [rows_bar]) (by simp [rows_bar])).2
    ?_ |>.2 ⟨by decide, by decide, by decide⟩
  rintro ⟨-, hcut | hcut⟩
  · exact hcut.baseUrl_ne (by decide)
  · exact hcut.baseUrl_ne (by decide)

end Moaray
