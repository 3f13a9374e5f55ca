import Moaray.Core.Compact
import Moaray.Moa.Delimiters
import Moaray.Moa.Order

/-!
# What counts as an answer

The quorum counts the arms whose call returned; what they said is read later, and leniently.
`assistantText` is the text of the assistant message a response carries, if it carries one.

* `extractText` against `assistantText` — a content that is a string is taken as it is; anything
  else is shown as JSON.
* `AnswersOnly` — an arm counts only if it answered, and the candidates are the answers.
* `answersOnly_iff` — which responses a run may get for that to hold of it.
* `sanitizeCandidate_extractText_iff` — when a candidate is the text of its response.

A response without a first choice, or whose message has no content, gives an empty candidate, and a
content that is `null` the candidate `null`; either goes to the aggregator like any other, and its
arm is counted.  A content given as text parts is printed as the JSON of those parts.

**Design.**  That a printed list of parts never happens to be the text its parts make up is a
matter of length: the print contains the text, in quotes, and more.  `PrintsCompact` is what this
needs of the JSON library.  Defanging a candidate keeps its length, so the comparison goes through
it.
-/

namespace Moaray

open Framework Json

/-! ## Texts -/

/-- The text of a content part of type `text`. -/
def textPart (part : Value) : Option String :=
  if (part.get "type").bind Value.asStr = some "text" then (part.get "text").bind Value.asStr
  else none

/-- The text of a textual content: a string, or text parts. -/
def textualContent : Value → Option String
  | .string s => some s
  | .array parts => (parts.mapM textPart).map String.join
  | _ => none

lemma sum_length_le_intercalate (sep : String) (l : List String) :
    (l.map String.length).sum ≤ (sep.intercalate l).length := by
  induction l with
  | nil => simp
  | cons s l ih =>
      rw [List.map_cons, List.sum_cons]
      by_cases hl : l = []
      · simp [hl]
      · rw [String.intercalate_cons_of_ne_nil hl, String.length_append, String.length_append]
        omega

namespace PrintsCompact

variable {serde : SerdeJson} (h : PrintsCompact serde)

include h

/-- A field's value stands in the print of its object, so it is no longer than that. -/
lemma length_field {fields : Map} {k : String} {v : Value} (hmem : (k, v) ∈ fields) :
    (serde.print v).length ≤ (serde.print (.object fields)).length := by
  have hle := sum_length_le_intercalate ","
    (fields.map fun f => serde.print (.string f.1) ++ ":" ++ serde.print f.2)
  have hfield : (serde.print (.string k) ++ ":" ++ serde.print v).length ≤
      ((fields.map fun f => serde.print (.string f.1) ++ ":" ++ serde.print f.2).map
        String.length).sum :=
    List.single_le_sum (by simp) _
      (List.mem_map_of_mem (f := String.length) (List.mem_map_of_mem (a := (k, v)) hmem))
  rw [h.object]
  simp only [String.length_append] at hfield ⊢
  omega

/-- The text of a part stands in the print of the part, in quotes. -/
lemma length_textPart {part : Value} {s : String} (hpart : textPart part = some s) :
    s.length + 2 ≤ (serde.print part).length := by
  have htext : (part.get "text").bind Value.asStr = some s := by
    unfold textPart at hpart
    split at hpart
    · exact hpart
    · cases hpart
  obtain ⟨v, hv, hs⟩ := Option.bind_eq_some_iff.1 htext
  cases v with
  | string t =>
      obtain rfl : t = s := Option.some.inj hs
      cases part with
      | object fields =>
          obtain ⟨before, after, hsplit, -⟩ := List.lookup_eq_some_iff.1 hv
          have hmem : ("text", Value.string t) ∈ fields := by
            rw [hsplit]
            exact List.mem_append_right _ List.mem_cons_self
          exact (h.string t).trans (h.length_field hmem)
      | _ => cases hv
  | _ => cases hs

/-- The texts of parts are shorter than the parts in print. -/
lemma length_textualContent {parts : List Value} {text : String}
    (htext : textualContent (.array parts) = some text) :
    text.length < (serde.print (.array parts)).length := by
  obtain ⟨texts, htexts, rfl⟩ := Option.map_eq_some_iff.1 htext
  have hsum : (texts.map String.length).sum ≤ ((parts.map serde.print).map String.length).sum := by
    clear htext
    induction parts generalizing texts with
    | nil =>
        obtain rfl : [] = texts := Option.some.inj htexts
        exact le_rfl
    | cons part parts ih =>
        rw [List.mapM_cons] at htexts
        obtain ⟨s, hs, hrest⟩ := Option.bind_eq_some_iff.1 htexts
        obtain ⟨rest, hparts, heq⟩ := Option.bind_eq_some_iff.1 hrest
        obtain rfl : s :: rest = texts := Option.some.inj heq
        have hpart := h.length_textPart hs
        have hih := ih rest hparts
        simp only [List.map_cons, List.sum_cons]
        omega
  have hle := sum_length_le_intercalate "," (parts.map serde.print)
  rw [h.array, String.length_join]
  simp only [String.length_append]
  have hbracket : "[".length = 1 := rfl
  omega

end PrintsCompact

/-! ## Candidates -/

lemma length_replaceChars {pat rep : List Char} (hlength : rep.length = pat.length)
    (hpat : pat ≠ []) (skip : ℕ) (cs : List Char) :
    (replaceChars pat rep skip cs).length = cs.length - skip := by
  have hpos : 0 < pat.length := List.length_pos_iff.2 hpat
  induction cs generalizing skip with
  | nil => simp [replaceChars]
  | cons c cs ih =>
      cases skip with
      | succ skip =>
          rw [replaceChars, ih, List.length_cons]
          omega
      | zero =>
          rw [replaceChars]
          split
          next hprefix =>
            have hle := (List.isPrefixOf_iff_prefix.1 hprefix).length_le
            rw [List.length_append, ih]
            rw [List.length_cons] at hle ⊢
            omega
          next => rw [List.length_cons, ih, List.length_cons, Nat.sub_zero, Nat.sub_zero]

lemma length_sanitizeCandidate (c : String) : (sanitizeCandidate c).length = c.length := by
  have hreplace (s pat rep : String) (hlength : rep.toList.length = pat.toList.length)
      (hpat : pat.toList ≠ []) : (replace s pat rep).length = s.length := by
    rw [replace, String.length_ofList, length_replaceChars hlength hpat, Nat.sub_zero,
      String.length_toList]
  rw [sanitizeCandidate, hreplace _ _ _ (by decide) (by decide),
    hreplace _ _ _ (by decide) (by decide)]

namespace Moa

/-- The message of a response's first choice. -/
def firstMessage (resp : ChatResponse) : Option Value :=
  resp.choices.head?.bind fun choice => choice.get "message"

/-- The text of the assistant message a response carries in its first choice. -/
def assistantText (resp : ChatResponse) : Option String :=
  (firstMessage resp).bind fun message =>
    if (message.get "role").bind Value.asStr = some "assistant" then
      (message.get "content").bind textualContent
    else none

/-- The content of the message is a string. -/
def SaidInText (resp : ChatResponse) : Prop :=
  ∃ s, (firstMessage resp).bind (fun message => message.get "content") = some (.string s)

lemma extractText_eq (serde : SerdeJson) (resp : ChatResponse) :
    extractText serde resp =
      (((firstMessage resp).bind fun message => message.get "content").map
        (valueToText serde)).getD "" := by
  unfold extractText firstMessage
  cases resp.choices.head? <;> rfl

lemma content_of_assistantText {resp : ChatResponse} {text : String}
    (h : assistantText resp = some text) :
    ∃ content, (firstMessage resp).bind (fun message => message.get "content") = some content ∧
      textualContent content = some text := by
  obtain ⟨message, hmessage, hrole⟩ := Option.bind_eq_some_iff.1 h
  split at hrole
  · obtain ⟨content, hcontent, htext⟩ := Option.bind_eq_some_iff.1 hrole
    refine ⟨content, ?_, htext⟩
    rw [hmessage]
    exact hcontent
  · cases hrole

/-- A text that is a string is taken as it is, and nothing is printed. -/
lemma extractText_of_saidInText (serde : SerdeJson) {resp : ChatResponse} {text : String}
    (htext : assistantText resp = some text) (h : SaidInText resp) :
    extractText serde resp = text := by
  obtain ⟨content, hcontent, htextual⟩ := content_of_assistantText htext
  obtain ⟨s, hs⟩ := h
  obtain rfl : content = .string s := Option.some.inj (hcontent.symm.trans hs)
  obtain rfl : s = text := Option.some.inj htextual
  rw [extractText_eq, hs]
  rfl

/-- The candidate made of an answer shows its text just when that is a string. -/
lemma sanitizeCandidate_extractText_iff {serde : SerdeJson} (h : PrintsCompact serde)
    {resp : ChatResponse} {text : String} (htext : assistantText resp = some text) :
    sanitizeCandidate (extractText serde resp) = sanitizeCandidate text ↔ SaidInText resp := by
  refine ⟨fun heq => ?_, fun hsaid => by rw [extractText_of_saidInText serde htext hsaid]⟩
  obtain ⟨content, hcontent, htextual⟩ := content_of_assistantText htext
  cases content with
  | string s => exact ⟨s, hcontent⟩
  | array parts =>
      -- The print of the parts is longer than their text, and defanging keeps lengths.
      have hlength := congrArg String.length heq
      rw [length_sanitizeCandidate, length_sanitizeCandidate, extractText_eq, hcontent] at hlength
      exact absurd hlength (h.length_textualContent htextual).ne'
  | _ => cases htextual

/-- Requests that are equal show the same candidates. -/
lemma sanitized_of_request_eq {serde : SerdeJson} {recipe : Recipe} {original : ChatRequest}
    {candidates candidates' : List String}
    (h : buildAggregatorRequest serde recipe original candidates =
      buildAggregatorRequest serde recipe original candidates') :
    candidates.map sanitizeCandidate = candidates'.map sanitizeCandidate := by
  have hmessage := congrArg userMessage h
  rw [userMessage_eq, userMessage_eq] at hmessage
  have hread := (readBlocks_blocks 0 candidates).2
  rw [List.append_cancel_left hmessage, (readBlocks_blocks 0 candidates').2] at hread
  exact (Option.some.inj hread).symm

/-! ## Runs -/

section Runs

variable {π : Type} (U : Upstreams π) (serde : SerdeJson) (o : Orchestrator π) (ctx : ReqCtx)
  (now : Instant) (recipe : Recipe) (request : ChatRequest)

/-- Only answers count: as successes, and as candidates.  An arm that said nothing counts as
neither. -/
structure AnswersOnly (moa : MoaRun) (calls : List (ChatCall π)) : Prop where
  /-- An arm is recorded as successful only if its response carries a text. -/
  counted :
    List.Forall₂
      (fun row a => a.status = .ok →
        ∃ resp, armVerdict U o ctx now recipe request row = .answered resp ∧
          (assistantText resp).isSome)
      recipe.proposers.zipIdx moa.proposers
  /-- The aggregator is shown the texts of the responses that carry one, a quorum of them, and
  nothing else. -/
  candidates :
    ∀ c ∈ calls, c.site = .aggregator →
      let texts := (answers U o ctx now recipe request).filterMap assistantText
      recipe.quorum ≤ texts.length ∧
        c.request = buildAggregatorRequest serde recipe request texts

variable {U serde o ctx now recipe request}

lemma counted_iff :
    List.Forall₂
        (fun row (a : ArmOutcome) => a.status = .ok →
          ∃ resp, armVerdict U o ctx now recipe request row = .answered resp ∧
            (assistantText resp).isSome)
        recipe.proposers.zipIdx (proposerOutcomes U o ctx now recipe request) ↔
      ∀ resp ∈ answers U o ctx now recipe request, (assistantText resp).isSome := by
  have hanswered (v : Verdict) (resp : ChatResponse) :
      v.response = some resp ↔ v = .answered resp := by
    cases v <;> simp [Verdict.response]
  have hok (v : Verdict) : v.status = .ok ↔ ∃ resp, v = .answered resp := by
    cases v <;> simp [Verdict.status]
  rw [proposerOutcomes, List.forall₂_map_right_iff, List.forall₂_same]
  simp only [outcomeOf, answers, List.mem_filterMap, hanswered, hok]
  constructor
  · rintro h resp ⟨row, hrow, hverdict⟩
    obtain ⟨resp', hverdict', hsome⟩ := h row hrow ⟨resp, hverdict⟩
    obtain rfl : resp' = resp := by
      rw [hverdict] at hverdict'
      exact (Verdict.answered.inj hverdict').symm
    exact hsome
  · rintro h row hrow ⟨resp, hverdict⟩
    exact ⟨resp, hverdict, h resp ⟨row, hrow, hverdict⟩⟩

lemma aggregator_call_iff {c : ChatCall π} :
    (c ∈ fanOutCalls o ctx recipe request ++
        (conclude U serde o ctx (fanOutEnd U o ctx now recipe request) recipe request
          (proposerOutcomes U o ctx now recipe request)
          (answers U o ctx now recipe request)).2 ∧ c.site = .aggregator) ↔
      recipe.quorum ≤ (answers U o ctx now recipe request).length ∧
        aggregatorCall U serde o ctx now recipe request = some c := by
  rw [conclude_fanOut, length_answers, List.mem_append]
  constructor
  · rintro ⟨hin | hin, hsite⟩
    · exact absurd hsite (site_of_mem_fanOutCalls o ctx recipe request hin)
    · split at hin
      · cases hin
      · exact ⟨by omega, by simpa using hin⟩
  · rintro ⟨hquorum, hcall⟩
    refine ⟨Or.inr ?_, site_aggregatorCall U serde o ctx now recipe request hcall⟩
    rw [if_neg (by omega)]
    simpa using hcall

/-- When every answer carries a text, the prompt shows those texts just when all are strings. -/
lemma request_eq_iff (hserde : PrintsCompact serde) {resps : List ChatResponse}
    (hall : ∀ resp ∈ resps, (assistantText resp).isSome) :
    buildAggregatorRequest serde recipe request (resps.map (extractText serde)) =
        buildAggregatorRequest serde recipe request (resps.filterMap assistantText) ↔
      ∀ resp ∈ resps, SaidInText resp := by
  have hsome {resp : ChatResponse} (hresp : resp ∈ resps) :
      assistantText resp = some ((assistantText resp).getD "") := by
    obtain ⟨text, htext⟩ := Option.isSome_iff_exists.1 (hall resp hresp)
    rw [htext, Option.getD_some]
  have htexts : resps.filterMap assistantText =
      resps.map fun resp => (assistantText resp).getD "" := by
    rw [List.filterMap_congr fun resp hresp => hsome hresp, List.filterMap_eq_map']
  rw [htexts]
  constructor
  · intro hrequest resp hresp
    have hshown := sanitized_of_request_eq hrequest
    rw [List.map_map, List.map_map, List.map_inj_left] at hshown
    exact (sanitizeCandidate_extractText_iff hserde (hsome hresp)).1 (hshown resp hresp)
  · intro hsaid
    have hextract : resps.map (extractText serde) =
        resps.map fun resp => (assistantText resp).getD "" :=
      List.map_congr_left fun resp hresp =>
        extractText_of_saidInText serde (hsome hresp) (hsaid resp hresp)
    rw [hextract]

/-- **Which runs count answers only.**  A run of a recipe does exactly if every response its
proposers return in time carries a text, and those that reach the aggregator carry it as a
string. -/
theorem answersOnly_iff (hserde : PrintsCompact serde) {recipeName : String}
    (hrecipe : o.recipe recipeName = some recipe) (completion : CompletionOrder)
    {moa : MoaRun} {calls : List (ChatCall π)}
    (hrun : run U serde o ctx completion now recipeName request = (.ok moa, calls)) :
    AnswersOnly U serde o ctx now recipe request moa calls ↔
      (∀ resp ∈ answers U o ctx now recipe request, (assistantText resp).isSome) ∧
        (recipe.quorum ≤ (answers U o ctx now recipe request).length →
          (o.resolve recipe.aggregator).isSome →
          ∀ resp ∈ answers U o ctx now recipe request, SaidInText resp) := by
  rw [run_eq, hrecipe] at hrun
  obtain ⟨hmoa, rfl⟩ := Prod.mk.inj hrun
  obtain rfl := Except.ok.inj hmoa
  have hproposers : (conclude U serde o ctx (fanOutEnd U o ctx now recipe request) recipe request
      (proposerOutcomes U o ctx now recipe request)
      (answers U o ctx now recipe request)).1.proposers =
        proposerOutcomes U o ctx now recipe request := by
    rw [conclude_fanOut]
    split <;> rfl
  constructor
  · rintro ⟨hcounted, hcandidates⟩
    rw [hproposers, counted_iff] at hcounted
    refine ⟨hcounted, fun hquorum hresolves => ?_⟩
    obtain ⟨p, hp⟩ := Option.isSome_iff_exists.1 hresolves
    obtain ⟨c, hcall⟩ : ∃ c, aggregatorCall U serde o ctx now recipe request = some c :=
      ⟨_, Option.map_eq_some_iff.2 ⟨p, hp, rfl⟩⟩
    obtain ⟨hmem, hsite⟩ := aggregator_call_iff.2 ⟨hquorum, hcall⟩
    have hrequest := (hcandidates c hmem hsite).2
    obtain ⟨q, hq, rfl⟩ := Option.map_eq_some_iff.1 hcall
    exact (request_eq_iff hserde hcounted).1 hrequest
  · rintro ⟨hall, hsaid⟩
    refine ⟨by rw [hproposers]; exact counted_iff.2 hall, fun c hmem hsite => ?_⟩
    obtain ⟨hquorum, hcall⟩ := aggregator_call_iff.1 ⟨hmem, hsite⟩
    obtain ⟨p, hp, rfl⟩ := Option.map_eq_some_iff.1 hcall
    have hlength : ((answers U o ctx now recipe request).filterMap assistantText).length =
        (answers U o ctx now recipe request).length := by
      rw [List.length_filterMap_eq_countP, List.countP_eq_length]
      exact hall
    refine ⟨by rw [hlength]; exact hquorum, ?_⟩
    exact (request_eq_iff hserde hall).2 (hsaid hquorum (by rw [hp]; rfl))

end Runs

/-! ## Arms that say nothing -/

/-- A response whose message has the given content. -/
def assistantSays (content : Value) : ChatResponse where
  id := none
  object := none
  model := none
  choices :=
    [.object [("message", .object [("content", content), ("role", .string "assistant")])]]
  usage := none
  extra := []

/-- The model always says the same. -/
def monotonous (content : Value) : Upstreams Unit where
  upstreamId _ := "opus"
  chat _ := { delay := some 1, result := .ok (assistantSays content) }

/-- Two arms without a content make a quorum, and the aggregator is shown two answers that read
`null`. -/
theorem nothing_said_counts :
    ∃ moa calls,
      run (monotonous .null) textSerde twiceOrchestrator (helloCtx 1000000000) .inOrder 0 "twice"
          helloRequest = (.ok moa, calls) ∧
        moa.proposers.map ArmOutcome.status = [.ok, .ok] ∧
        (calls.getLast?.map ChatCall.request) =
          some (buildAggregatorRequest textSerde twice helloRequest ["null", "null"]) ∧
        ¬ AnswersOnly (monotonous .null) textSerde twiceOrchestrator (helloCtx 1000000000) 0 twice
          helloRequest moa calls := by
  refine ⟨_, _, rfl, rfl, rfl, fun h => ?_⟩
  have hquorum := (h.candidates _ (List.mem_cons_of_mem _ (List.mem_cons_of_mem _
    List.mem_cons_self)) rfl).1
  exact absurd hquorum (by decide)

/-! ## Arms that say something -/

/-- A library that prints, and reads nothing: no reply is read from bytes here. -/
def compactSerde : SerdeJson := .ofTexts []

/-- Two arms that say something do count. -/
theorem answersOnly_iff_something :
    ∃ moa calls,
      run (monotonous (.string "four")) compactSerde twiceOrchestrator (helloCtx 1000000000)
          .inOrder 0 "twice" helloRequest = (.ok moa, calls) ∧
        AnswersOnly (monotonous (.string "four")) compactSerde twiceOrchestrator
          (helloCtx 1000000000) 0 twice helloRequest moa calls := by
  have hrecipe : twiceOrchestrator.recipe "twice" = some twice := rfl
  have hanswers : answers (monotonous (.string "four")) twiceOrchestrator (helloCtx 1000000000) 0
      twice helloRequest = List.replicate 2 (assistantSays (.string "four")) := rfl
  refine ⟨_, _, rfl,
    (answersOnly_iff (printsCompact_ofTexts []) hrecipe .inOrder rfl).2 ⟨?_, fun _ _ => ?_⟩⟩
  · rw [hanswers]
    decide
  · intro resp hresp
    rw [hanswers] at hresp
    obtain rfl := List.eq_of_mem_replicate hresp
    exact ⟨"four", rfl⟩

end Moa

end Moaray
