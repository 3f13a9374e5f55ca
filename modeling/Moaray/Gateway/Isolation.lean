import Moaray.Gateway.Bill
import Moaray.Gateway.Coherence
import Moaray.Gateway.Server
import Moaray.Moa.Order

/-!
# Requests are served apart from each other

Other requests, reloads and the writer come between any two statements of a request.  All it sees
of them is what it reads: the snapshot it is pinned to, the buckets when its own is asked, and the
live settings at three later places.

* `Has` — surroundings with the values a request read.
* `Stands` — what a request has read and left behind, at each stage.
* `Account.step`, `account_of_run` — one step of anybody, and every run.
* `served_apart` — a request is answered, counted and booked as the handler says for the values it
  read, whatever ran in between; a dropped one leaves nothing behind.

The invariant is about one request at a time.  For a request at some stage there are surroundings
that have every value it has read so far, and what it has counted and booked is what the handler,
run in these surroundings, has recorded by then.  A step of the request reads one value more, and
the surroundings are changed at that one place; a step of anybody else changes nothing the account
speaks of.

**Design.**  Surroundings have more in them than a request has read: what it has not yet read is
left open by an existential, and settled by later steps.  So the account of a request that was
turned away early says nothing of its upstreams, and a completed one has all of it fixed but for
what it never looked at.
-/

namespace Moaray

open Framework Json

namespace Server

variable {ρ : Type}

def State.countedFor (s : State ρ) (id : ℕ) : List Metric :=
  (s.counted.filter fun c => c.1 = id).map Prod.snd

def State.bookedFor (s : State ρ) (id : ℕ) : List UsageRecord :=
  (s.booked.filter fun b => b.1 = id).map Prod.snd

/-- The surroundings hold a value that was read. -/
def Has (w : Surroundings ρ) : Reading ρ → Prop
  | .snapshot rt => w.runtime = rt
  | .bucket stateful answer => w.stateful = stateful ∧ w.limiter = answer
  | .bodyCap settings => w.atBody = settings
  | .callTime settings now => w.atCall = settings ∧ w.now = now
  | .upstreams answers =>
      w.unixMs = answers.unixMs ∧ w.raw = answers.raw ∧ w.chat = answers.chat ∧
        w.completion = answers.completion
  | .replyTime settings => w.atReply = settings

/-! ## The handler, gate by gate -/

section Gates

variable {w : Surroundings ρ} {req : Request}

lemma preRoute_eq (w : Surroundings ρ) (req : Request) :
    App.preRoute w req =
      (App.caller w req >>= fun auth =>
        (w.stateful.checkKeyLimit auth.keyId w.limiter).2 >>= fun _ =>
          routeBody w.serde w.runtime auth req.body w.atBody.maxBodyBytes) := rfl

lemma preRoute_routeBody {auth : AuthContext} (hauth : App.caller w req = .ok auth)
    (hlimit : (w.stateful.checkKeyLimit auth.keyId w.limiter).2 = .ok ()) :
    App.preRoute w req =
      routeBody w.serde w.runtime auth req.body w.atBody.maxBodyBytes := by
  rw [preRoute_eq, hauth]
  show ((w.stateful.checkKeyLimit auth.keyId w.limiter).2 >>= fun _ => _) = _
  rw [hlimit]
  rfl

lemma chatCompletions_error {e : Error} (h : App.preRoute w req = .error e) :
    App.chatCompletions w req =
      { metrics := recordRejection e.envelope.status, rows := [], result := errorResponse e } := by
  rw [App.chatCompletions, h]
  rfl

lemma chatCompletions_ok {routed : Routed} (h : App.preRoute w req = .ok routed) :
    App.chatCompletions w req =
      { metrics := (App.execute w req.requestId routed).metrics
        rows := (App.execute w req.requestId routed).rows
        result := App.respond (App.execute w req.requestId routed).result } := by
  rw [App.chatCompletions, h]

/-- The settings a completion is rendered under reach neither the metrics nor the rows, and what
the request is answered with depends on them as its outcome says. -/
lemma execute_atReply (w : Surroundings ρ) (requestId : String) (routed : Routed)
    (settings : ServerConfig) :
    let served := App.execute { w with atReply := settings } requestId routed
    served.metrics = (App.execute w requestId routed).metrics ∧
      served.rows = (App.execute w requestId routed).rows ∧
      App.respond served.result = (outcome w requestId routed).render settings := by
  cases routed with
  | passthrough auth raw model stream provider runtime => exact ⟨rfl, rfl, rfl⟩
  | moa callerKeyId recipe raw model runtime =>
      have hsame : App.orchestrate { w with atReply := settings } requestId callerKeyId recipe
          model = App.orchestrate w requestId callerKeyId recipe model := rfl
      simp only [App.execute, App.runMoa, outcome, completed, hsame]
      cases hrequest : ChatRequest.fromSlice w.serde w.reader raw with
      | error e => exact ⟨rfl, rfl, rfl⟩
      | ok request =>
          cases hrun : (App.orchestrate w requestId callerKeyId recipe model request runtime).1 with
          | error e =>
              simp only [Except.toOption, Option.bind_eq_bind, Option.bind_some, hrun, true_and]
              rfl
          | ok run =>
              simp only [Except.toOption, Option.bind_eq_bind, Option.bind_some, hrun]
              cases run.outcome with
              | error e => exact ⟨rfl, rfl, rfl⟩
              | ok response => exact ⟨rfl, rfl, rfl⟩

end Gates

/-! ## Where a request stands -/

/-- What a request has read and left behind, at each stage. -/
def Stands (w : Surroundings ρ) (req : Request) (log : List (Reading ρ)) (counted : List Metric)
    (booked : List UsageRecord) : Stage → Prop
  | .arrived => log = [] ∧ counted = [] ∧ booked = []
  | .authenticated rt auth =>
      log = [.snapshot w.runtime] ∧ rt = w.runtime ∧ App.caller w req = .ok auth ∧
        counted = [] ∧ booked = []
  | .limited rt auth =>
      log = [.snapshot w.runtime, .bucket w.stateful w.limiter] ∧ rt = w.runtime ∧
        App.caller w req = .ok auth ∧
        (w.stateful.checkKeyLimit auth.keyId w.limiter).2 = .ok () ∧ counted = [] ∧ booked = []
  | .routed routed =>
      log = [.snapshot w.runtime, .bucket w.stateful w.limiter, .bodyCap w.atBody] ∧
        App.preRoute w req = .ok routed ∧ counted = [] ∧ booked = []
  | .calling routed settings now =>
      log = [.snapshot w.runtime, .bucket w.stateful w.limiter, .bodyCap w.atBody,
        .callTime w.atCall w.now] ∧
        App.preRoute w req = .ok routed ∧ settings = w.atCall ∧ now = w.now ∧
        counted = [] ∧ booked = []
  -- The live settings are still to be read, so this holds for any of them.
  | .booking metrics rows outcome =>
      ∀ settings, (∀ r ∈ log, Has { w with atReply := settings } r) ∧
        App.chatCompletions { w with atReply := settings } req =
          { metrics := counted ++ metrics, rows := booked ++ rows
            result := outcome.render settings }
  | .answered response =>
      (∀ r ∈ log, Has w r) ∧
        App.chatCompletions w req = { metrics := counted, rows := booked, result := response }
  | .dropped => counted = [] ∧ booked = []

instance : Inhabited Answers where
  default :=
    { unixMs := 0
      raw := fun _ _ _ _ => { delay := none, decision := .refused .internal }
      chat := fun _ => { delay := none, result := .error .internal }
      completion := { order := id, perm := List.Perm.refl } }

section Account

variable (serde : SerdeJson) (reader : RequestReader)

/-- The account of one request: nothing before it arrives, and then what its stage says, for some
surroundings. -/
def Account (id : ℕ) (log : List (Reading ρ)) (s : State ρ) : Prop :=
  match s.flights id with
  | none => log = [] ∧ s.countedFor id = [] ∧ s.bookedFor id = []
  | some f =>
      ∃ w : Surroundings ρ, w.serde = serde ∧ w.reader = reader ∧
        Stands w f.req log (s.countedFor id) (s.bookedFor id) f.stage

variable {serde reader} {calls : ℕ → ℕ → Governed.Call} {capacity batch : ℕ} {id : ℕ}
  {log : List (Reading ρ)} {s t : State ρ} {a : Action ρ}

lemma Account.of_flight {req : Request} {stage : Stage} (h : Account serde reader id log s)
    (hf : s.flights id = some { req, stage }) :
    ∃ w : Surroundings ρ, w.serde = serde ∧ w.reader = reader ∧
      Stands w req log (s.countedFor id) (s.bookedFor id) stage := by
  rw [Account, hf] at h
  exact h

/-- A request that was moved has the account of its new stage. -/
lemma account_goto {req : Request} {stage : Stage} {w : Surroundings ρ} (hserde : w.serde = serde)
    (hreader : w.reader = reader)
    (h : Stands w req log (s.countedFor id) (s.bookedFor id) stage) :
    Account serde reader id log (s.goto id req stage) := by
  rw [Account, State.flights_goto_self]
  exact ⟨w, hserde, hreader, h⟩

/-- A request that is turned away is answered as the handler answers it. -/
lemma account_rejected {req : Request} {e : Error} {w : Surroundings ρ} (hserde : w.serde = serde)
    (hreader : w.reader = reader)
    (hlog : ∀ settings, ∀ r ∈ log, Has { w with atReply := settings } r)
    (hcounted : s.countedFor id = []) (hbooked : s.bookedFor id = [])
    (h : App.preRoute w req = .error e) :
    Account serde reader id log (s.goto id req (rejected e)) := by
  refine account_goto hserde hreader fun settings => ⟨hlog settings, ?_⟩
  rw [hcounted, hbooked]
  -- No gate reads the settings of the reply.
  exact chatCompletions_error (w := { w with atReply := settings }) h

lemma countedFor_count (s : State ρ) (id : ℕ) (m : Metric) :
    (s.count id m).countedFor id = s.countedFor id ++ [m] := by
  simp [State.countedFor, State.count]

lemma bookedFor_book (s : State ρ) (id : ℕ) (row : UsageRecord) (sink : Store.State) :
    (s.book id row sink).bookedFor id = s.bookedFor id ++ [row] := by
  simp [State.bookedFor, State.book]

/-- A step of the request itself keeps its account: what it has read is one value longer, and so is
what the surroundings are known by. -/
lemma Account.own (h : Account serde reader id log s)
    (hmoves : Moves serde reader calls capacity batch s a t) (hid : a.request = some id) :
    Account serde reader id (log ++ (reading id s a).toList) t := by
  cases hmoves with
  | arrive hf =>
      obtain rfl := Option.some.inj hid
      rw [Account, hf] at h
      obtain ⟨rfl, hcounted, hbooked⟩ := h
      exact account_goto (w := callSurroundings serde reader s s.settings 0 default) rfl rfl
        ⟨rfl, hcounted, hbooked⟩
  | authenticate hf hauth =>
      obtain rfl := Option.some.inj hid
      obtain ⟨w, hserde, hreader, rfl, hcounted, hbooked⟩ := h.of_flight hf
      rw [reading, if_pos rfl]
      exact account_goto (w := { w with runtime := s.runtime }) hserde hreader
        ⟨rfl, rfl, hauth, hcounted, hbooked⟩
  | @unauthorized _ req e hf hauth =>
      obtain rfl := Option.some.inj hid
      obtain ⟨w, hserde, hreader, rfl, hcounted, hbooked⟩ := h.of_flight hf
      rw [reading, if_pos rfl]
      have hcaller : App.caller { w with runtime := s.runtime } req = .error e := hauth
      refine account_rejected (w := { w with runtime := s.runtime }) hserde hreader ?_ hcounted
        hbooked ?_
      · exact fun _ => List.forall_mem_singleton.2 rfl
      · rw [preRoute_eq, hcaller]
        rfl
  | @limit _ answer req rt auth stateful hf hlimit =>
      obtain rfl := Option.some.inj hid
      obtain ⟨w, hserde, hreader, rfl, hrt, hauth, hcounted, hbooked⟩ := h.of_flight hf
      rw [reading, if_pos rfl]
      refine account_goto
        (w := { w with stateful := s.system.core.stateful, limiter := answer }) hserde hreader
        ⟨rfl, hrt, hauth, ?_, hcounted, hbooked⟩
      show (s.system.core.stateful.checkKeyLimit auth.keyId answer).2 = _
      rw [hlimit]
  | @throttle _ answer req rt auth stateful e hf hlimit =>
      obtain rfl := Option.some.inj hid
      obtain ⟨w, hserde, hreader, rfl, hrt, hauth, hcounted, hbooked⟩ := h.of_flight hf
      rw [reading, if_pos rfl]
      have hcaller : App.caller
          { w with stateful := s.system.core.stateful, limiter := answer } req = .ok auth := hauth
      refine account_rejected
        (w := { w with stateful := s.system.core.stateful, limiter := answer }) hserde hreader ?_
        hcounted hbooked ?_
      · simp [Has]
      · rw [preRoute_eq, hcaller]
        show ((s.system.core.stateful.checkKeyLimit auth.keyId answer).2 >>= fun _ => _) = _
        rw [hlimit]
        rfl
  | @readBody _ req rt auth routed hf hroute =>
      obtain rfl := Option.some.inj hid
      obtain ⟨w, rfl, rfl, rfl, rfl, hauth, hlimit, hcounted, hbooked⟩ := h.of_flight hf
      rw [reading, if_pos rfl]
      have hpre : App.preRoute { w with atBody := s.settings } req = .ok routed :=
        (preRoute_routeBody (w := { w with atBody := s.settings }) hauth hlimit).trans hroute
      exact account_goto (w := { w with atBody := s.settings }) rfl rfl
        ⟨rfl, hpre, hcounted, hbooked⟩
  | @refuseBody _ req rt auth e hf hroute =>
      obtain rfl := Option.some.inj hid
      obtain ⟨w, rfl, rfl, rfl, rfl, hauth, hlimit, hcounted, hbooked⟩ := h.of_flight hf
      rw [reading, if_pos rfl]
      refine account_rejected (w := { w with atBody := s.settings }) rfl rfl ?_ hcounted hbooked ?_
      · simp [Has]
      · exact (preRoute_routeBody (w := { w with atBody := s.settings }) hauth hlimit).trans hroute
  | @call _ now req routed hf =>
      obtain rfl := Option.some.inj hid
      obtain ⟨w, hserde, hreader, rfl, hpre, hcounted, hbooked⟩ := h.of_flight hf
      rw [reading, if_pos rfl]
      exact account_goto (w := { w with atCall := s.settings, now }) hserde hreader
        ⟨rfl, hpre, rfl, rfl, hcounted, hbooked⟩
  | @finish _ answers req routed settings now hf =>
      obtain rfl := Option.some.inj hid
      obtain ⟨w, rfl, rfl, rfl, hpre, rfl, rfl, hcounted, hbooked⟩ := h.of_flight hf
      rw [reading, if_pos rfl]
      let w' : Surroundings ρ :=
        { w with
          unixMs := answers.unixMs, raw := answers.raw, chat := answers.chat
          completion := answers.completion }
      refine account_goto (w := w') rfl rfl fun settings => ⟨by simp [Has, w'], ?_⟩
      obtain ⟨hmetrics, hrows, hresult⟩ := execute_atReply
        (callSurroundings w.serde w.reader s w.atCall w.now answers) req.requestId routed settings
      rw [hcounted, hbooked, List.nil_append, List.nil_append, ← hmetrics, ← hrows, ← hresult]
      exact chatCompletions_ok (w := { w' with atReply := settings }) hpre
  | @count _ req m metrics rows outcome hf =>
      obtain rfl := Option.some.inj hid
      obtain ⟨w, hserde, hreader, hstands⟩ := h.of_flight hf
      show Account serde reader _ (log ++ []) _
      rw [List.append_nil]
      refine account_goto hserde hreader fun settings => ⟨(hstands settings).1, ?_⟩
      rw [countedFor_count, List.append_assoc]
      exact (hstands settings).2
  | @book _ req metrics row rows outcome sink hf hsink =>
      obtain rfl := Option.some.inj hid
      obtain ⟨w, hserde, hreader, hstands⟩ := h.of_flight hf
      show Account serde reader _ (log ++ []) _
      rw [List.append_nil]
      refine account_goto hserde hreader fun settings => ⟨(hstands settings).1, ?_⟩
      rw [bookedFor_book, List.append_assoc]
      exact (hstands settings).2
  | @respond _ req outcome hf =>
      obtain rfl := Option.some.inj hid
      obtain ⟨w, hserde, hreader, hstands⟩ := h.of_flight hf
      obtain ⟨hlog, hserved⟩ := hstands s.settings
      rw [List.append_nil, List.append_nil] at hserved
      refine account_goto (w := { w with atReply := s.settings }) hserde hreader ⟨?_, hserved⟩
      rw [reading, if_pos rfl, hf]
      cases outcome with
      | ready response => simpa using hlog
      | completion run response => exact List.forall_mem_append.2 ⟨hlog, by simp [Has]⟩
  | @cancel _ req stage hf hwaits =>
      obtain rfl := Option.some.inj hid
      obtain ⟨w, hserde, hreader, hstands⟩ := h.of_flight hf
      refine account_goto hserde hreader ?_
      rcases hwaits with rfl | ⟨rt, auth, rfl⟩ | ⟨routed, settings, now, rfl⟩
      · exact ⟨hstands.2.1, hstands.2.2⟩
      · exact ⟨hstands.2.2.2.2.1, hstands.2.2.2.2.2⟩
      · exact ⟨hstands.2.2.2.2.1, hstands.2.2.2.2.2⟩
  | system | store => cases hid

/-- Every step of the server keeps the account of every request. -/
lemma Account.step (h : Account serde reader id log s)
    (hmoves : Moves serde reader calls capacity batch s a t) :
    Account serde reader id (log ++ (reading id s a).toList) t := by
  by_cases hid : a.request = some id
  · exact h.own hmoves hid
  · obtain ⟨hflight, hcounted, hbooked⟩ := hmoves.other hid
    rw [reading_other hid, Option.toList_none, List.append_nil]
    unfold Account State.countedFor State.bookedFor at h ⊢
    rw [hflight, hcounted, hbooked]
    exact h

end Account

/-! ## Runs -/

section Runs

variable {serde : SerdeJson} {reader : RequestReader} {calls : ℕ → ℕ → Governed.Call}
  {capacity batch : ℕ} {s t : State ρ} {as : List (Action ρ)}

lemma account_started (hs : Started s) (id : ℕ) : Account serde reader id [] s := by
  obtain ⟨-, hflights, -, hcounted, hbooked⟩ := hs
  rw [Account, hflights, State.countedFor, State.bookedFor, hcounted, hbooked]
  exact ⟨rfl, rfl, rfl⟩

/-- After every run every request has its account: its flight, its counters and its rows are those
of the same request served alone under what it has read. -/
theorem account_of_run (hs : Started s)
    (h : (machine serde reader calls capacity batch).run s as = some t) (id : ℕ) :
    Account serde reader id (readings serde reader calls capacity batch id s as) t := by
  unfold readings
  refine Machine.invariant_of_ghost (I := fun log u => Account serde reader id log u) h
    (account_started hs id) ?_
  intro log pre u a v htakes haccount
  exact haccount.step (moves_of_step htakes.step)

/-- **Requests are served apart.**  Whatever reloads, other requests, cancellations and steps of
the writer come in between, a request that was answered got the response of the handler for the
values it read itself, each of them live when it read it, and left behind exactly the metrics and
rows of that one call.  A request that was dropped left none. -/
theorem served_apart (hs : Started s)
    (h : (machine serde reader calls capacity batch).run s as = some t) {id : ℕ} {f : Flight}
    (hf : t.flights id = some f) :
    (∀ response, f.stage = .answered response →
      ∃ w : Surroundings ρ, w.serde = serde ∧ w.reader = reader ∧
        (∀ r ∈ readings serde reader calls capacity batch id s as, Has w r) ∧
        App.chatCompletions w f.req =
          { metrics := t.countedFor id, rows := t.bookedFor id, result := response }) ∧
      (f.stage = .dropped → t.countedFor id = [] ∧ t.bookedFor id = []) := by
  obtain ⟨w, hserde, hreader, hstands⟩ := (account_of_run hs h id).of_flight hf
  constructor
  · intro response hanswered
    rw [hanswered] at hstands
    exact ⟨w, hserde, hreader, hstands.1, hstands.2⟩
  · intro hdropped
    rw [hdropped] at hstands
    exact hstands

/-- A run leaves the requests it takes no step of where they are. -/
lemma flights_of_run (h : (machine serde reader calls capacity batch).run s as = some t) {id : ℕ}
    (hid : ∀ a ∈ as, a.request ≠ some id) : t.flights id = s.flights id := by
  refine (machine serde reader calls capacity batch).invariant_of_run_on
    (I := fun u => u.flights id = s.flights id) (fun u a v ha hu hstep => ?_) hid rfl h
  exact ((moves_of_step hstep).other ha).1.trans hu

end Runs

/-! ### A busy server -/

/-- A document with a key, a model and a recipe. -/
def busyDoc (exposes : Bool) (price : Option Price) : ConfigDoc where
  server := { moaExposeMetadata := exposes }
  keys :=
    [{ id := "team", keyEnv := some "INBOUND_A", keySha256 := none,
       allowModels := ["gpt", "moa/r"], rateLimit := none }]
  models :=
    [{ name := "gpt", providerType := .openaiCompat, baseUrl := "https://a",
       apiKeyEnv := "UPSTREAM_KEY", upstreamId := none, rateLimit := none, maxConcurrency := none,
       pricePromptPerMtokUsd := price, priceCompletionPerMtokUsd := price }]
  recipes := (∅ : Table String RecipeDoc).insert "r"
    { proposers := ["gpt"], aggregator := "gpt", strategy := .concatSynthesize, quorum := 1 }

def relayText : String :=
  "\x7b\"model\":\"gpt\",\"messages\":[\x7b\"role\":\"user\",\"content\":\"hi\"\x7d]\x7d"

def busyTexts : List (String × Value) :=
  (relayText, .object
    [("messages", .array [.object [("content", .string "hi"), ("role", .string "user")]]),
      ("model", .string "gpt")]) :: App.billedTexts

def busySerde : SerdeJson := .ofTexts busyTexts

def busyReader : RequestReader := App.strayWorld.reader

def relayRequest : Request where
  requestId := "req-0"
  authorization := some "Bearer token-a"
  body := some (utf8 relayText)

def recipeRequest : Request where
  requestId := "req-1"
  authorization := some "Bearer token-a"
  body := some (utf8 (App.billedText "hi"))

/-- On either path the model says hello. -/
def busyAnswers : Answers where
  unixMs := 1700000000000
  raw _ _ _ _ := App.saying "hello"
  chat c := chatReply busySerde (fun _ => false) c (App.saying "hello")
  completion := .inOrder

/-- A reload of a document, statement by statement. -/
def busyReload (doc : ConfigDoc) : List (Action Unit) :=
  .system (.reload (Reload.soloWorld doc)) :: List.replicate 6 (.system .advance)

/-- Three clients come in; one is called for a model that has no price yet. -/
def busyOpening : List (Action Unit) :=
  [.arrive 0 relayRequest, .arrive 1 recipeRequest, .arrive 2 relayRequest, .authenticate 0,
    .authenticate 2, .limit 0 { allowed := true, cell := 0 }, .readBody 0, .call 0 5]

/-- Requests between the two reloads: one goes away, and one is routed to the recipe.  The first is
booked and answered, and the writer commits its row while the rows of the recipe are recorded. -/
def busyMiddle : List (Action Unit) :=
  [.limit 2 { allowed := true, cell := 0 }, .authenticate 1,
    .limit 1 { allowed := true, cell := 0 }, .cancel 2, .readBody 1, .finish 0 busyAnswers,
    .call 1 9, .count 0, .book 0, .store .recv, .count 0, .store (.drain true),
    .finish 1 busyAnswers, .count 1, .count 0, .respond 0, .store (.transact true), .count 1,
    .book 1, .count 1, .book 1]

def busyEnd : List (Action Unit) := [.count 1, .count 1, .count 1, .respond 1]

/-- In between, the model gets a price, and the metadata extension is switched on. -/
def busySteps : List (Action Unit) :=
  busyOpening ++ (busyReload (busyDoc false (some (.finite 2))) ++
    (busyMiddle ++ (busyReload (busyDoc true (some (.finite 2))) ++ busyEnd)))

/-- What the server does from its start. -/
def busyRun (as : List (Action Unit)) : Option (State Unit) :=
  match validate Reload.soloPlatform (busyDoc false none) with
  | .error _ => none
  | .ok config =>
      match ConfigReloader.startup Reload.soloPlatform.env config "moaray.yaml" with
      | .error _ => none
      | .ok core =>
          (machine busySerde busyReader Reload.soloCalls 8 2).run
            { system := { core, stage := .idle, result := none }, flights := fun _ => none,
              sink := Store.init, counted := [], booked := [] } as

/-- A request was answered with a success. -/
def State.succeeded (s : State ρ) (id : ℕ) (req : Request) : Bool :=
  match s.flights id with
  | some { req := asked, stage := .answered response } =>
      decide (asked = req) && response.status == 200
  | _ => false

lemma State.exists_of_succeeded {s : State ρ} {id : ℕ} {req : Request}
    (h : s.succeeded id req = true) :
    ∃ response, s.flights id = some { req, stage := .answered response } ∧
      response.status = 200 := by
  unfold succeeded at h
  split at h
  · rename_i asked response hf
    simp only [Bool.and_eq_true, decide_eq_true_eq, beq_iff_eq] at h
    obtain ⟨rfl, hstatus⟩ := h
    exact ⟨response, hf, hstatus⟩
  · cases h

/-- What can be computed of the server is a run of it. -/
lemma exists_busyRun (test : State Unit → Bool) (h : (busyRun busySteps).any test = true) :
    ∃ s t : State Unit, Started s ∧
      (machine busySerde busyReader Reload.soloCalls 8 2).run s busySteps = some t ∧
      test t = true := by
  obtain ⟨t, ht, htest⟩ : ∃ t, busyRun busySteps = some t ∧ test t = true := by
    simpa [Option.any_eq_true] using h
  unfold busyRun at ht
  split at ht
  · cases ht
  · rename_i config hconfig
    split at ht
    · cases ht
    · rename_i core hcore
      exact ⟨_, t, ⟨⟨Reload.soloPlatform, _, _, ⟨_, hconfig⟩, hcore, rfl, rfl⟩,
        fun _ => rfl, rfl, rfl, rfl⟩, ht, htest⟩

/-- Two requests are answered as the handler says for what each has read: the one that was pinned
before the first reload, and the one that saw the second only when it was rendered.  The third has
left nothing behind. -/
theorem served_apart_busy :
    ∃ s t : State Unit, Started s ∧
      (machine busySerde busyReader Reload.soloCalls 8 2).run s busySteps = some t ∧
      (∀ entry ∈ [(0, relayRequest), (1, recipeRequest)],
        ∃ (w : Surroundings Unit) (response : Response), response.status = 200 ∧
          (∀ r ∈ readings busySerde busyReader Reload.soloCalls 8 2 entry.1 s busySteps, Has w r) ∧
          App.chatCompletions w entry.2 =
            { metrics := t.countedFor entry.1, rows := t.bookedFor entry.1, result := response }) ∧
      (t.bookedFor 0).length = 1 ∧ (t.bookedFor 1).length = 2 ∧ t.bookedFor 2 = [] := by
  obtain ⟨s, t, hs, hrun, htest⟩ := exists_busyRun
    (fun t => t.succeeded 0 relayRequest && t.succeeded 1 recipeRequest &&
      decide ((t.bookedFor 0).length = 1 ∧ (t.bookedFor 1).length = 2 ∧ t.bookedFor 2 = []))
    (by decide +kernel)
  simp only [Bool.and_eq_true, decide_eq_true_eq] at htest
  obtain ⟨⟨hrelay, hrecipe⟩, hrows⟩ := htest
  refine ⟨s, t, hs, hrun, fun entry hentry => ?_, hrows⟩
  obtain ⟨response, hflight, hstatus⟩ : ∃ response, t.flights entry.1 =
      some { req := entry.2, stage := .answered response } ∧ response.status = 200 := by
    rcases List.mem_pair.1 hentry with rfl | rfl
    · exact State.exists_of_succeeded hrelay
    · exact State.exists_of_succeeded hrecipe
  obtain ⟨w, -, -, hread, hserved⟩ := (served_apart hs hrun hflight).1 response rfl
  exact ⟨w, response, hstatus, hread, hserved⟩

end Server

end Moaray
