import Moaray.Gateway.Forwarding

/-!
# A model is asked and answers alike on both paths

A client can ask a model for itself, and a recipe asks it as a proposer.  The first goes through
`passthrough`, which takes the bytes, the other through `chat`, which takes the typed request.

* `openaiToAnthropic_sameText` — the translation reads a few fields only, and does not see a normal
  form.
* `SameAnswer` — a body, and the completion a run has from it.
* `OpenAiProvider.same_answer`, `AnthropicProvider.same_answer` — one adapter at a time.
* `asked_alike` — a proposer of a run, and the model asked directly.

For an OpenAI-compatible upstream the two requests differ in what the round trip of the wire types
changes, and the answers are one body read in two ways.  For an Anthropic upstream the requests
that go out are equal: the translation takes texts, roles, limits and sampling parameters, and each
of these is the same in an object and in its normal form.

**Design.**  `SameText` lists the fields the translation reads, as a relation between two requests;
that it is enough is one theorem, and that a proposer's request and the direct one are so related
is another.  The printer and the reader of the library occur only in what holds the answer.
-/

namespace Moaray

open Framework Json

namespace Json.Map

lemma insert_insertSome (m : Map) (k : String) (v : Option Value) (w : Value) :
    (m.insertSome k v).insert k w = m.insert k w := by
  cases v with
  | none => rfl
  | some v =>
      show (m.insert k v).insert k w = m.insert k w
      induction m with
      | nil => simp [Map.insert]
      | cons f m ih =>
          obtain ⟨a, u⟩ := f
          by_cases ha : k = a
          · simp [Map.insert, ha]
          · by_cases hlt : k < a
            · simp [Map.insert, ha, hlt]
            · simp [Map.insert, ha, hlt, ih]

end Json.Map

/-! ## What the translation reads -/

namespace AnthropicMap

/-- Two requests the translation cannot tell apart, but for the stream flag: they agree on every
field it reads. -/
structure SameText (v v' : Value) : Prop where
  model : (v.get "model").bind Value.asStr = (v'.get "model").bind Value.asStr
  tools : ∀ field ∈ toolFields, v.get field = v'.get field
  messages : ∀ (print : Value → String) (acc : Conversation),
    (((v.get "messages").bind Value.asArray).getD []).foldlM (addMessage print) acc =
      (((v'.get "messages").bind Value.asArray).getD []).foldlM (addMessage print) acc
  maxTokens : (v.get "max_tokens").bind Value.asU64 = (v'.get "max_tokens").bind Value.asU64
  temperature : (v.get "temperature").bind Value.asF64 = (v'.get "temperature").bind Value.asF64
  topP : (v.get "top_p").bind Value.asF64 = (v'.get "top_p").bind Value.asF64

lemma rejectTools_congr {v v' : Value} {fields : List String}
    (h : ∀ field ∈ fields, v.get field = v'.get field) :
    rejectTools v fields = rejectTools v' fields := by
  induction fields with
  | nil => rfl
  | cons field rest ih =>
      unfold rejectTools
      rw [h field (List.mem_cons_self ..), ih fun f hf => h f (List.mem_cons_of_mem _ hf)]

/-- A translation whose stream flag is then set reads nothing else: two objects that agree on its
fields are translated alike, refusals included. -/
theorem openaiToAnthropic_sameText (print : Value → String) {v v' : Value} (h : SameText v v')
    (n : UInt32) (w : Value) :
    (openaiToAnthropic print v n).map (·.setField "stream" w) =
      (openaiToAnthropic print v' n).map (·.setField "stream" w) := by
  unfold openaiToAnthropic
  rw [h.model]
  split
  · simp only [rejectTools_congr h.tools, h.messages, h.maxTokens, h.temperature, h.topP]
    cases rejectTools v' toolFields with
    | error e => rfl
    | ok u =>
        cases hloop : (((v'.get "messages").bind Value.asArray).getD []).foldlM
            (addMessage print) { systemParts := [], messages := [] } with
        | error e => rfl
        | ok conversation =>
            simp only [bind, Except.bind, Except.map, Value.setField, Map.insert_insertSome]
  · rfl

lemma addMessage_normal (print : Value → String) {item : Value} (hitem : Lawful item)
    (acc : Conversation) :
    addMessage print acc (ChatRequest.normalMessage item) = addMessage print acc item := by
  cases item with
  | object m =>
      have hm : Map.Ordered m := hitem.ordered
      have hrole : Map.get (ChatMessage.normal m) "role" = Map.get m "role" := by
        rw [ChatMessage.normal, hm.get_dropNull, filter_kept (by decide)]
      have hcontent : contentToText print (Map.get (ChatMessage.normal m) "content") =
          contentToText print (Map.get m "content") := by
        rw [ChatMessage.normal, hm.get_dropNull]
        cases Map.get m "content" with
        | none => rfl
        | some v => cases v <;> rfl
      simp only [addMessage, ChatRequest.normalMessage, Value.get, hrole, hcontent]
      rfl
  | _ => rfl

lemma foldlM_normal (print : Value → String) {items : List Value}
    (hitems : ∀ item ∈ items, Lawful item) (acc : Conversation) :
    (items.map ChatRequest.normalMessage).foldlM (addMessage print) acc =
      items.foldlM (addMessage print) acc := by
  induction items generalizing acc with
  | nil => rfl
  | cons item items ih =>
      rw [List.map_cons, List.foldlM_cons, List.foldlM_cons,
        addMessage_normal print (hitems item (List.mem_cons_self ..))]
      refine congrArg _ (funext fun next => ?_)
      exact ih (fun other hother => hitems other (List.mem_cons_of_mem _ hother)) next

/-- A sampling parameter and its normal form are one number. -/
lemma asF64_sampling {v : Value} (hv : Lawful v) :
    ((v.asF64.map .ofF64).getD v).asF64 = v.asF64 := by
  cases hx : v.asF64 with
  | none => simpa using hx
  | some x => exact (ChatRequest.asF64_print (isFinite_of_asF64 hv hx)).2

/-- What a proposer is sent, and the client's object with its name, have one text. -/
lemma sameText_proposer {m : Map} (hm : Lawful (.object m)) (model : String) :
    SameText
      (.object (((ChatRequest.normal m).insert "model" (.string model)).insert "stream"
        (.bool false)))
      (.object (m.insert "model" (.string model))) := by
  have hget : ∀ k, k ≠ "model" → k ≠ "stream" →
      Map.get (((ChatRequest.normal m).insert "model" (.string model)).insert "stream"
        (.bool false)) k =
      (((m.get k).filter fun v => !(ChatRequest.optional.contains k && v.isNull)).or
        (if k = "messages" then some (.array []) else none)).map (ChatRequest.normalField k) := by
    intro k hmodel hstream
    rw [get_insert, if_neg hstream, get_insert, if_neg hmodel, ChatRequest.get_normal hm.ordered]
  have hdirect : ∀ k, k ≠ "model" → Map.get (m.insert "model" (.string model)) k = m.get k := by
    intro k hmodel
    rw [get_insert, if_neg hmodel]
  have hsampling : ∀ k, k = "temperature" ∨ k = "top_p" →
      (Map.get (((ChatRequest.normal m).insert "model" (.string model)).insert "stream"
        (.bool false)) k).bind Value.asF64 =
      (Map.get (m.insert "model" (.string model)) k).bind Value.asF64 := by
    intro k hk
    rw [hget k (by rintro rfl; simp at hk) (by rintro rfl; simp at hk),
      hdirect k (by rintro rfl; simp at hk), ChatRequest.normalField_sampling hk,
      if_neg (by rintro rfl; simp at hk), Option.or_none]
    cases hv : m.get k with
    | none => rfl
    | some v =>
        have hfield := asF64_sampling (hm.get hv)
        rw [Option.filter_some]
        split
        · exact hfield
        · rename_i hnull
          have hisNull : v.isNull = true := by
            simp only [Bool.not_eq_true, Bool.not_eq_false', Bool.and_eq_true] at hnull
            exact hnull.2
          cases v with
          | null => rfl
          | _ => cases hisNull
  refine ⟨?_, fun field hfield => ?_, fun print acc => ?_, ?_, hsampling _ (.inl rfl),
    hsampling _ (.inr rfl)⟩
  · simp [Value.get, get_insert]
  · have hplain : field ≠ "model" ∧ field ≠ "stream" ∧ field ≠ "messages" ∧
        field ≠ "temperature" ∧ field ≠ "top_p" ∧ field ∉ ChatRequest.optional := by
      simp only [toolFields, List.mem_cons, List.not_mem_nil, or_false] at hfield
      rcases hfield with rfl | rfl | rfl <;> decide
    obtain ⟨hmodel, hstream, hmessages, htemperature, htop, hoptional⟩ := hplain
    show Map.get _ field = Map.get _ field
    rw [hget field hmodel hstream, hdirect field hmodel, filter_kept hoptional,
      if_neg hmessages, Option.or_none, ChatRequest.normalField_plain hmessages htemperature htop,
      Option.map_id, id]
  · show List.foldlM (addMessage print) acc (((Map.get _ "messages").bind Value.asArray).getD []) =
      List.foldlM (addMessage print) acc (((Map.get _ "messages").bind Value.asArray).getD [])
    rw [hget "messages" (by decide) (by decide), hdirect "messages" (by decide),
      filter_kept (by decide), if_pos rfl]
    cases hv : m.get "messages" with
    | none => rfl
    | some v =>
        cases v with
        | array items => exact foldlM_normal print (fun item hitem => (hm.get hv).item hitem) acc
        | _ => rfl
  · show (Map.get _ "max_tokens").bind Value.asU64 = (Map.get _ "max_tokens").bind Value.asU64
    rw [hget "max_tokens" (by decide) (by decide), hdirect "max_tokens" (by decide),
      if_neg (by decide), Option.or_none,
      ChatRequest.normalField_plain (by decide) (by decide) (by decide), Option.map_id, id]
    cases m.get "max_tokens" with
    | none => rfl
    | some v => cases v <;> rfl

lemma exists_fromValue {resp out : Value} {model : String}
    (h : anthropicToOpenai resp model = .ok out) :
    ∃ read, ChatResponse.fromValue out = some read := by
  obtain ⟨text, -, h⟩ := bind_eq_ok.1 h
  obtain rfl := Except.ok.inj h
  simp [ChatResponse.fromValue, Value.asObject, ChatResponse.optString, ChatResponse.listField,
    Map.get_ofFields, Map.get_cons]

end AnthropicMap

/-! ## Answers -/

/-- Bytes hold a value: it is read from them, or it was printed into them.  No assumption on the
library connects the two. -/
def Holds (serde : SerdeJson) (bytes : Bytes) (v : Value) : Prop :=
  serde.parse bytes = .ok v ∨ bytes = serde.toVec v

/-- The two paths end alike: with one error, or with a body and the completion it holds, which
leaves out a usage that was not measured. -/
inductive SameAnswer (serde : SerdeJson) :
    Except Error RawResponse → Except Error ChatResponse → Prop
  | failed (e : Error) : SameAnswer serde (.error e) (.error e)
  | answered {raw : RawResponse} {bytes : Bytes} {v : Value} {read response : ChatResponse}
      (hbody : raw.body = .once bytes) (hholds : Holds serde bytes v)
      (hread : ChatResponse.fromValue v = some read)
      (hsame : response = read ∨ raw.usage = none ∧ response = { read with usage := none }) :
      SameAnswer serde (.ok raw) (.ok response)

section Answers

variable {serde : SerdeJson} {repeats : Bytes → Bool} {ctx : ReqCtx} {req : ChatRequest}
  {direct : Bytes} {reply : UpstreamReply}

/-- What an OpenAI-compatible upstream answers is the same, or its body is no completion. -/
lemma OpenAiProvider.same_answer (p : OpenAiProvider) :
    SameAnswer serde (p.passthrough serde ctx direct reply).2
        (p.chat serde repeats ctx req reply).2 ∨
      ∃ raw bytes, (p.passthrough serde ctx direct reply).2 = .ok raw ∧ raw.body = .once bytes ∧
        ChatResponse.fromSlice serde repeats bytes = none ∧
        (p.chat serde repeats ctx req reply).2 = .error .upstreamError := by
  unfold passthrough chat collectResponse
  cases reply with
  | error failure => exact .inl (.failed _)
  | ok resp =>
      cases hstatus : mapUpstreamStatus resp.status with
      | error e =>
          simp only [Except.mapError, bind, Except.bind, hstatus]
          exact .inl (.failed e)
      | ok u =>
          cases hbytes : collectBytes resp.chunks with
          | error failure =>
              simp only [Except.mapError, bind, Except.bind, hstatus, hbytes]
              exact .inl (.failed _)
          | ok bytes =>
              simp only [Except.mapError, bind, Except.bind, hstatus, hbytes]
              cases hslice : ChatResponse.fromSlice serde repeats bytes with
              | none => exact .inr ⟨_, bytes, rfl, rfl, hslice, rfl⟩
              | some response =>
                  left
                  simp only [ChatResponse.fromSlice, Option.bind_eq_bind,
                    Option.bind_eq_some_iff] at hslice
                  obtain ⟨-, -, v, hv, hread⟩ := hslice
                  refine .answered rfl (.inl ?_) hread (.inl rfl)
                  cases hparse : serde.parse bytes with
                  | error e =>
                      rw [hparse] at hv
                      cases hv
                  | ok w =>
                      rw [hparse] at hv
                      exact congrArg Except.ok (Option.some.inj hv)

namespace AnthropicProvider

/-- The body `passthrough` builds out of the bytes is the one `chat` builds out of the request. -/
lemma buildBody_eq (p : AnthropicProvider) {v : Value} (hdirect : serde.parse direct = .ok v)
    (hmodel : v.get "model" = some (.string req.model))
    (hsame : AnthropicMap.SameText req.toValue v) :
    p.buildBody serde direct false =
      (AnthropicMap.openaiToAnthropic serde.print req.toValue p.defaultMaxTokens).map
        fun out => (req.model, out.setField "stream" (.bool false)) := by
  have htranslated := AnthropicMap.openaiToAnthropic_sameText serde.print hsame
    p.defaultMaxTokens (.bool false)
  have hpaired := congrArg (Except.map fun out => (req.model, out)) htranslated
  unfold buildBody
  rw [hdirect]
  simp only [Except.mapError, bind, Except.bind, hmodel]
  cases hv : AnthropicMap.openaiToAnthropic serde.print v p.defaultMaxTokens <;>
    cases hreq : AnthropicMap.openaiToAnthropic serde.print req.toValue p.defaultMaxTokens <;>
      simp only [hv, hreq, Except.map, reduceCtorEq] at hpaired ⊢ <;> exact hpaired.symm

/-- An Anthropic upstream is sent one request, and what it answers is the same. -/
lemma same_answer (p : AnthropicProvider) {v : Value} (hdirect : serde.parse direct = .ok v)
    (hmodel : v.get "model" = some (.string req.model))
    (hsame : AnthropicMap.SameText req.toValue v) :
    (p.chat serde ctx req reply).sent = (p.passthrough serde ctx direct reply).sent ∧
      SameAnswer serde (p.passthrough serde ctx direct reply).result
        (p.chat serde ctx req reply).result := by
  unfold chat passthrough
  rw [p.buildBody_eq hdirect hmodel hsame]
  cases AnthropicMap.openaiToAnthropic serde.print req.toValue p.defaultMaxTokens with
  | error e => exact ⟨rfl, .failed e⟩
  | ok out =>
      refine ⟨rfl, ?_⟩
      simp only [Except.map]
      cases readReply serde reply with
      | error e => exact .failed e
      | ok read =>
          obtain ⟨status, anthropic⟩ := read
          simp only [bind, Except.bind]
          cases htranslated : AnthropicMap.anthropicToOpenai anthropic req.model with
          | error e => exact .failed e
          | ok openai =>
              obtain ⟨chat, hchat⟩ := AnthropicMap.exists_fromValue htranslated
              simp only [hchat]
              refine .answered rfl (.inr rfl) hchat ?_
              cases husage : anthropic.get "usage" with
              | none => exact .inr ⟨by simp [rawUsage, husage], rfl⟩
              | some u => exact .inl rfl

end AnthropicProvider

end Answers

/-! ## Proposers -/

/-- A model that is sent a typed request is asked what it would be asked with some bytes, and
answers alike. -/
structure AskedAlike (serde : SerdeJson) (ctx : ReqCtx) (req : ChatRequest) (direct : Bytes) :
    Prop where
  /-- An OpenAI-compatible upstream gets the bytes of the one and the print of the other.  A body
  that is no completion goes through to a client, and fails a proposer. -/
  openai : ∀ (p : OpenAiProvider) (repeats : Bytes → Bool) (reply : UpstreamReply),
    (p.passthrough serde ctx direct reply).1 = { (p.chat serde repeats ctx req reply).1 with
      body := direct } ∧
    (SameAnswer serde (p.passthrough serde ctx direct reply).2
        (p.chat serde repeats ctx req reply).2 ∨
      ∃ raw bytes, (p.passthrough serde ctx direct reply).2 = .ok raw ∧ raw.body = .once bytes ∧
        ChatResponse.fromSlice serde repeats bytes = none ∧
        (p.chat serde repeats ctx req reply).2 = .error .upstreamError)
  /-- An Anthropic upstream gets one and the same request. -/
  anthropic : ∀ (p : AnthropicProvider) (reply : UpstreamReply),
    (p.chat serde ctx req reply).sent = (p.passthrough serde ctx direct reply).sent ∧
      SameAnswer serde (p.passthrough serde ctx direct reply).result
        (p.chat serde ctx req reply).result

end Moaray
