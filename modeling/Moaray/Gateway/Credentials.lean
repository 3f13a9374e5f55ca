import Moaray.Gateway.Unspoken

/-!
# Credentials go to their upstream and nowhere else

The key of an upstream is put into the requests that are sent to it.  With other keys, and with
other secrets for the callers, a gateway answers, books and counts exactly as before.

* `withKey` — a provider with another key: what an adapter sends and what it makes of a reply.
* `Moa.run_map` — a run over providers that are exchanged for others.
* `Rekeyed` — two gateways that differ in the keys of their upstreams.
* `credentials_kept` — a gateway whose secrets are exchanged.

An adapter with another key sends the same request but for the header with the key, and makes the
same of every reply.  A run does not look into its providers, so exchanging them for others that
are answered alike changes nothing but who is called.

**Design.**  This is noninterference again, and the premise is about the upstreams: those behind
the new keys reply as those behind the old ones did.  The caller presents a new secret and is
authenticated as the same key; that the response is the same in every byte is the conclusion.
-/

namespace Moaray

open Framework Json

/-! ## Providers -/

def InnerProvider.withKey (key : String) : InnerProvider → InnerProvider
  | .openai p => .openai { p with apiKey := key }
  | .anthropic p => .anthropic { p with apiKey := key }

/-- A provider with another key. -/
def ProviderRef.withKey (key : String) (p : ProviderRef) : ProviderRef :=
  { p with provider := { p.provider with inner := p.provider.inner.withKey key } }

section WithKey

variable {serde : SerdeJson} {repeats : Bytes → Bool} {ctx : ReqCtx} (key : String)

lemma InnerProvider.passthrough_withKey (p : InnerProvider) (rawBody : Bytes) (stream : Bool)
    (reply : UpstreamReply) :
    (p.withKey key).passthrough serde ctx rawBody stream reply =
      p.passthrough serde ctx rawBody stream reply := by
  cases p with
  | openai p => cases stream <;> rfl
  | anthropic p =>
      have hbody : ∀ s, AnthropicProvider.buildBody serde { p with apiKey := key } rawBody s =
          p.buildBody serde rawBody s := fun _ => rfl
      cases stream with
      | false =>
          simp only [withKey, passthrough, AnthropicProvider.passthrough, hbody]
          cases p.buildBody serde rawBody false <;> rfl
      | true =>
          simp only [withKey, passthrough, AnthropicProvider.passthroughStream, hbody]
          cases p.buildBody serde rawBody true <;> rfl

lemma InnerProvider.chat_withKey (p : InnerProvider) (req : ChatRequest) (reply : UpstreamReply) :
    (p.withKey key).chat serde repeats ctx req reply = p.chat serde repeats ctx req reply := by
  cases p with
  | openai p => rfl
  | anthropic p =>
      simp only [withKey, chat, AnthropicProvider.chat]
      cases AnthropicMap.openaiToAnthropic serde.print req.toValue p.defaultMaxTokens <;> rfl

@[simp] lemma InnerProvider.upstreamId_withKey (p : InnerProvider) :
    (p.withKey key).upstreamId = p.upstreamId := by
  cases p <;> rfl

lemma ProviderRef.passthrough_withKey (p : ProviderRef) (rawBody : Bytes) (stream : Bool)
    (decision : Decision) :
    (p.withKey key).passthrough serde ctx rawBody stream decision =
      p.passthrough serde ctx rawBody stream decision := by
  cases decision with
  | refused e => rfl
  | attempted reply => exact p.provider.inner.passthrough_withKey key rawBody stream reply

lemma ProviderRef.chat_withKey (p : ProviderRef) (req : ChatRequest) (decision : Decision) :
    (p.withKey key).chat serde repeats ctx req decision =
      p.chat serde repeats ctx req decision := by
  cases decision with
  | refused e => rfl
  | attempted reply => exact p.provider.inner.chat_withKey key req reply

@[simp] lemma ProviderRef.upstreamId_withKey (p : ProviderRef) :
    (p.withKey key).upstreamId = p.upstreamId :=
  p.provider.inner.upstreamId_withKey key

end WithKey

/-! ## Runs -/

namespace Moa

variable {π π' : Type}

def ChatCall.map (f : π → π') (c : ChatCall π) : ChatCall π' where
  site := c.site
  provider := f c.provider
  ctx := c.ctx
  request := c.request

variable {f : π → π'} {U : Upstreams π} {U' : Upstreams π'} {serde : SerdeJson}
  {o : Orchestrator π} {o' : Orchestrator π'} {ctx : ReqCtx} {recipe : Recipe}
  {request : ChatRequest}

section Map

variable (hresolve : ∀ m, o'.resolve m = (o.resolve m).map f)
  (hchat : ∀ c, U'.chat (c.map f) = U.chat c) (hid : ∀ p, U'.upstreamId (f p) = U.upstreamId p)

include hresolve in
lemma armCall_map (row : String × ℕ) :
    armCall o' ctx request row = (armCall o ctx request row).map (ChatCall.map f) := by
  unfold armCall
  rw [hresolve, Option.map_map, Option.map_map]
  rfl

include hresolve in
lemma fanOutCalls_map :
    fanOutCalls o' ctx recipe request = (fanOutCalls o ctx recipe request).map (ChatCall.map f) := by
  unfold fanOutCalls
  rw [List.map_filterMap]
  exact List.filterMap_congr fun row _ => armCall_map hresolve row

include hresolve hchat hid in
lemma fanOut_map (now : Instant) :
    fanOut U' o' ctx now recipe request = fanOut U o ctx now recipe request := by
  refine List.map_congr_left fun row _ => ?_
  unfold arm
  rw [hresolve]
  cases o.resolve row.1 with
  | none => rfl
  | some p =>
      have hcall := hchat ⟨.proposer row.2, p, ctx, armRequest request row.1⟩
      unfold ChatCall.map at hcall
      simp only [Option.map_some, runArm, hid, hcall]

include hresolve hchat hid in
lemma conclude_map (now : Instant) (proposers : List ArmOutcome) (successes : List ChatResponse) :
    conclude U' serde o' ctx now recipe request proposers successes =
      Prod.map id (List.map (ChatCall.map f))
        (conclude U serde o ctx now recipe request proposers successes) := by
  have hcall : ∀ p req, U'.chat { site := .aggregator, provider := f p, ctx, request := req } =
      U.chat { site := .aggregator, provider := p, ctx, request := req } := fun p req =>
    hchat ⟨.aggregator, p, ctx, req⟩
  unfold conclude
  dsimp only
  rw [hresolve]
  by_cases hquorum : successes.length < recipe.quorum
  · simp only [if_pos hquorum, Prod.map_apply, id_eq, List.map_nil]
  · simp only [if_neg hquorum]
    cases o.resolve recipe.aggregator with
    | none => rfl
    | some p =>
        simp only [Option.map_some, hcall, hid]
        rcases timeout _ _ with ⟨_ | _ | _, _⟩ <;> rfl

include hresolve hchat hid in
/-- A run over other providers that answer alike is the same run, with the calls made to the others.
-/
theorem run_map (hrecipe : ∀ r, o'.recipe r = o.recipe r) (completion : CompletionOrder)
    (now : Instant) (name : String) (request : ChatRequest) :
    run U' serde o' ctx completion now name request =
      Prod.map id (List.map (ChatCall.map f)) (run U serde o ctx completion now name request) := by
  unfold run
  rw [hrecipe]
  cases o.recipe name with
  | none => rfl
  | some recipe =>
      simp only [fanOutTime, fanOut_map hresolve hchat hid, fanOutCalls_map hresolve,
        conclude_map hresolve hchat hid, Prod.map_apply, List.map_append]
      rfl

end Map

end Moa

/-! ## The handler -/

section Handler

variable {ρ : Type}

/-- A gateway with another snapshot and other upstreams. -/
def Surroundings.exchanged (w : Surroundings ρ) (rt' : Runtime)
    (raw' : ProviderRef → ReqCtx → Bytes → Bool → RawReply)
    (chat' : Moa.ChatCall ProviderRef → Moa.Reply) : Surroundings ρ :=
  { w with runtime := rt', raw := raw', chat := chat' }

/-- The providers of a gateway are exchanged for others that differ in their keys, and their
upstreams reply to the two alike. -/
structure Rekeyed (f : ProviderRef → ProviderRef) (w w' : Surroundings ρ) : Prop where
  keys : ∀ p, ∃ key, f p = p.withKey key
  models : w'.runtime.config.models = w.runtime.config.models
  providers : ∀ m : String, w'.runtime.providers[m]? = (w.runtime.providers[m]?).map f
  resolve : ∀ m, w'.runtime.orchestrator.resolve m = (w.runtime.orchestrator.resolve m).map f
  recipe : ∀ r, w'.runtime.orchestrator.recipe r = w.runtime.orchestrator.recipe r
  raw : ∀ p ctx body stream, w'.raw (f p) ctx body stream = w.raw p ctx body stream
  chat : ∃ (repeats : Bytes → Bool) (replies : Moa.ChatCall ProviderRef → RawReply), ∀ c,
    w.chat c = chatReply w.serde repeats c (replies c) ∧
      w'.chat (c.map f) = chatReply w.serde repeats (c.map f) (replies c)

namespace Rekeyed

variable {f : ProviderRef → ProviderRef} {w w' : Surroundings ρ} (h : Rekeyed f w w')

include h

lemma upstreamId (p : ProviderRef) : (f p).upstreamId = p.upstreamId := by
  obtain ⟨key, hkey⟩ := h.keys p
  rw [hkey, ProviderRef.upstreamId_withKey]

lemma passthrough {serde : SerdeJson} {ctx : ReqCtx} (p : ProviderRef) (raw : Bytes)
    (stream : Bool) (decision : Decision) :
    (f p).passthrough serde ctx raw stream decision =
      p.passthrough serde ctx raw stream decision := by
  obtain ⟨key, hkey⟩ := h.keys p
  rw [hkey, ProviderRef.passthrough_withKey]

/-- A structured call ends alike: an adapter makes the same of a reply with another key. -/
lemma chat_map (c : Moa.ChatCall ProviderRef) : w'.chat (c.map f) = w.chat c := by
  obtain ⟨repeats, replies, hreplies⟩ := h.chat
  obtain ⟨hchat, hchat'⟩ := hreplies c
  obtain ⟨key, hkey⟩ := h.keys c.provider
  rw [hchat, hchat', chatReply, chatReply, Moa.ChatCall.map, hkey]
  simp only [ProviderRef.chat_withKey]

end Rekeyed

namespace App

variable {f : ProviderRef → ProviderRef} {w : Surroundings ρ} {rt' : Runtime}
  {raw' : ProviderRef → ReqCtx → Bytes → Bool → RawReply}
  {chat' : Moa.ChatCall ProviderRef → Moa.Reply} {req : Request}

lemma passthrough_rekeyed (h : Rekeyed f w (w.exchanged rt' raw' chat')) {requestId : String}
    {auth : AuthContext} {raw : Bytes} {model : String} {stream : Bool} {provider : ProviderRef} :
    passthrough (w.exchanged rt' raw' chat') requestId auth raw model stream (f provider) rt' =
      passthrough w requestId auth raw model stream provider w.runtime := by
  have hcall : rawCall (w.exchanged rt' raw' chat') requestId auth raw model stream (f provider) =
      rawCall w requestId auth raw model stream provider := by
    have hraw := h.raw provider (reqCtx w requestId auth.keyId model) raw stream
    unfold rawCall
    dsimp only
    rw [h.passthrough]
    exact congrArg (fun reply : RawReply =>
      rawTimeout (durationFromMillis w.atCall.requestTimeoutMs) reply.delay
        (provider.passthrough w.serde (reqCtx w requestId auth.keyId model) raw stream
          reply.decision)) hraw
  have hbook : booking (w.exchanged rt' raw' chat') requestId auth.keyId rt' =
      booking w requestId auth.keyId w.runtime :=
    congrArg (fun models => ({ requestId, tsUnixMs := w.unixMs, callerKeyId := auth.keyId, models } :
      Booking)) h.models
  unfold passthrough
  rw [hcall, hbook, h.upstreamId]

lemma runMoa_rekeyed (h : Rekeyed f w (w.exchanged rt' raw' chat'))
    {requestId callerKeyId recipe model : String} {raw : Bytes} :
    runMoa (w.exchanged rt' raw' chat') requestId callerKeyId recipe raw model rt' =
      runMoa w requestId callerKeyId recipe raw model w.runtime := by
  have hrun : ∀ request,
      (orchestrate (w.exchanged rt' raw' chat') requestId callerKeyId recipe model request rt').1 =
        (orchestrate w requestId callerKeyId recipe model request w.runtime).1 := by
    intro request
    have hchat : ∀ c, (w.exchanged rt' raw' chat').upstreams.chat (c.map f) =
        w.upstreams.chat c := h.chat_map
    have hmap : orchestrate (w.exchanged rt' raw' chat') requestId callerKeyId recipe model request
          rt' =
        Prod.map id (List.map (Moa.ChatCall.map f))
          (orchestrate w requestId callerKeyId recipe model request w.runtime) :=
      Moa.run_map h.resolve hchat h.upstreamId h.recipe w.completion w.now recipe request
    rw [hmap]
    rfl
  have hbook : booking (w.exchanged rt' raw' chat') requestId callerKeyId rt' =
      booking w requestId callerKeyId w.runtime :=
    congrArg (fun models => ({ requestId, tsUnixMs := w.unixMs, callerKeyId, models } :
      Booking)) h.models
  unfold runMoa
  simp only [hrun, hbook]
  rfl

/-- What comes through the last gates is executed alike. -/
lemma routeModel_rekeyed (h : Rekeyed f w (w.exchanged rt' raw' chat')) (auth : AuthContext)
    (raw : Bytes) (model : String) (stream : Bool) :
    (∃ e, routeModel rt' auth raw model stream = .error e ∧
        routeModel w.runtime auth raw model stream = .error e) ∨
      ∃ next next', routeModel rt' auth raw model stream = .ok next' ∧
        routeModel w.runtime auth raw model stream = .ok next ∧
        ∀ requestId, execute (w.exchanged rt' raw' chat') requestId next' =
          execute w requestId next := by
  have hmodels : rt'.config.models = w.runtime.config.models := h.models
  have hproviders : ∀ m : String, rt'.providers[m]? = (w.runtime.providers[m]?).map f :=
    h.providers
  unfold routeModel
  rw [hmodels]
  split
  · exact .inl ⟨_, rfl, rfl⟩
  · split
    · rename_i name _
      rw [hproviders]
      cases w.runtime.providers[name]? with
      | none => exact .inl ⟨_, rfl, rfl⟩
      | some provider => exact .inr ⟨_, _, rfl, rfl, fun _ => passthrough_rekeyed h⟩
    · split
      · exact .inl ⟨_, rfl, rfl⟩
      · exact .inr ⟨_, _, rfl, rfl, fun _ => runMoa_rekeyed h⟩
    · exact .inl ⟨_, rfl, rfl⟩

lemma routeBody_rekeyed (h : Rekeyed f w (w.exchanged rt' raw' chat')) (auth : AuthContext)
    (body : Option Bytes) (limit : ℕ) :
    (∃ e, Server.routeBody w.serde rt' auth body limit = .error e ∧
        Server.routeBody w.serde w.runtime auth body limit = .error e) ∨
      ∃ next next', Server.routeBody w.serde rt' auth body limit = .ok next' ∧
        Server.routeBody w.serde w.runtime auth body limit = .ok next ∧
        ∀ requestId, execute (w.exchanged rt' raw' chat') requestId next' =
          execute w requestId next := by
  have hbody := @routeBody_hears w.serde w.reader body limit
  cases hheard : hears w.serde w.reader limit body with
  | tooLarge =>
      simp only [hheard] at hbody
      exact .inl ⟨_, hbody _ _, hbody _ _⟩
  | noJson | noModel =>
      simp only [hheard] at hbody
      obtain ⟨msg, hbody⟩ := hbody
      exact .inl ⟨_, hbody _ _, hbody _ _⟩
  | request model stream typed =>
      simp only [hheard] at hbody
      obtain ⟨raw, -, hbody⟩ := hbody
      rw [hbody, hbody]
      exact routeModel_rekeyed h auth raw model stream

end App

end Handler

/-! ## A gateway with new secrets -/

namespace App

/-- The key of the upstream and the secret of the caller are replaced. -/
def rotatedRuntime : Runtime where
  config :=
    { strayWorld.runtime.config with
      keys := [{ id := "k", secret := .plain "t", allowModels := ["moa/r"], rateLimit := none }] }
  providers := ∅
  orchestrator :=
    { seededRuntime.orchestrator with
      resolver := (∅ : Table String ProviderRef).insert "gpt" (seededProvider.withKey "rotated") }

lemma rekeyed_rotatedRuntime :
    Rekeyed (ProviderRef.withKey "rotated") billedWorld
      (billedWorld.exchanged rotatedRuntime billedWorld.raw billedWorld.chat) where
  keys _ := ⟨"rotated", rfl⟩
  models := rfl
  providers m := by
    show (∅ : Table String ProviderRef)[m]? = ((∅ : Table String ProviderRef)[m]?).map _
    simp
  resolve m := by
    show ((∅ : Table String ProviderRef).insert "gpt" (seededProvider.withKey "rotated"))[m]? =
      (((∅ : Table String ProviderRef).insert "gpt" seededProvider)[m]?).map _
    rw [Std.ExtTreeMap.getElem?_insert, Std.ExtTreeMap.getElem?_insert]
    split <;> simp
  recipe _ := rfl
  raw _ _ _ _ := rfl
  chat := ⟨fun _ => false, fun _ => saying "hello", fun _ => ⟨rfl, rfl⟩⟩

lemma caller_rotatedRuntime :
    caller (billedWorld.exchanged rotatedRuntime billedWorld.raw billedWorld.chat)
        { billedRequest with authorization := some "Bearer t" } =
      .ok { keyId := "k", allowModels := ["moa/r"] } := rfl

end App

end Moaray
