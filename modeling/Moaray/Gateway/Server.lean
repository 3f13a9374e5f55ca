import Moaray.Gateway.App
import Moaray.Store.Writer

/-!
# The running server

Requests in flight, reloads, the usage writer and the calls over the upstream slots, interleaved. A
request is cut wherever it reads or writes something that is shared: the published snapshot, the
buckets, the live settings, the clock, the metrics and the usage sink.  What its upstreams do is
the environment's answer.

* `Stage`, `Flight` — where a request stands, with its locals.
* `step`, `machine` — one step of one party.
* `Moves` — the steps, one case for each way the server can move; `moves_of_step`.
* `Reading`, `readings` — what a request has read on its way.

The order of the cuts is the handler's: the metrics and rows of a call are recorded first, and the
flag that decides whether a completion carries its metadata is read after that, so a reload in
between is seen by the answer and not by the rows.  A request may be cancelled at every `await`,
and then it leaves behind what it has recorded so far, which before its call is nothing.

**Design.**  The handler is written as a function elsewhere, over surroundings that hold a value
for each place it reads.  Here each of these values is read in a step of its own, and `Reading`
lists them.  The system does not call the handler: it goes through the same gates, stage by stage,
and that the two agree is a theorem.

The other parties are the systems of reloads, of calls and of the writer, taken as they are; the
metrics and the rows carry the number of their request, which nothing reads.
-/

namespace Moaray

open Framework Json

namespace Server

variable {ρ : Type}

/-! ## Requests in flight -/

/-- What a request is going to be answered with, once everything is recorded: a response that
stands, or the completion of a run, which is only then rendered, under the settings that are live
at that moment. -/
inductive Outcome
  | ready (response : Response)
  | completion (run : Moa.MoaRun) (response : ChatResponse)

def Outcome.render (settings : ServerConfig) : Outcome → Response
  | .ready response => response
  | .completion run response => App.renderUnder settings run response

/-- Where a request stands, with the locals it holds there: what it has read so far, as far as it is
still needed. -/
inductive Stage
  | arrived
  /-- The snapshot is pinned and its keys know the caller. -/
  | authenticated (rt : Runtime) (auth : AuthContext)
  /-- The caller's bucket had a token. -/
  | limited (rt : Runtime) (auth : AuthContext)
  | routed (routed : Routed)
  /-- The upstreams are being called, under these settings and from this time on. -/
  | calling (routed : Routed) (settings : ServerConfig) (now : Instant)
  /-- The outcome is known; these metrics and rows are still to be recorded. -/
  | booking (metrics : List Metric) (rows : List UsageRecord) (outcome : Outcome)
  | answered (response : Response)
  /-- The client went away, and the handler with it. -/
  | dropped

structure Flight where
  req : Request
  stage : Stage

/-- The upstreams' side of a request, and the wall clock when it is booked.  It is given when the
call is through, and covers all calls of a run. -/
structure Answers where
  unixMs : Int64
  raw : ProviderRef → ReqCtx → Bytes → Bool → RawReply
  chat : Moa.ChatCall ProviderRef → Moa.Reply
  completion : Moa.CompletionOrder

/-- The server: the reloads and slots, the requests in flight, the sink, and all that was counted
and booked, by request. -/
structure State (ρ : Type) where
  system : Reload.System ρ
  flights : ℕ → Option Flight
  sink : Store.State
  /-- The increments made, in order, each with the request that made it. -/
  counted : List (ℕ × Metric)
  /-- The rows handed to the sink, in order, each with the request it is for. -/
  booked : List (ℕ × UsageRecord)

namespace State

def goto (s : State ρ) (id : ℕ) (req : Request) (stage : Stage) : State ρ :=
  { s with flights := Function.update s.flights id (some { req, stage }) }

def withStateful (s : State ρ) (stateful : StatefulState ρ) : State ρ :=
  { s with system := { s.system with core := { s.system.core with stateful } } }

/-- Increment a metric for a request. -/
def count (s : State ρ) (id : ℕ) (m : Metric) : State ρ :=
  { s with counted := s.counted ++ [(id, m)] }

/-- Hand a row of a request to the sink, which is then in the state `sink`.  The tag says whose row
it is, and is no part of the row. -/
def book (s : State ρ) (id : ℕ) (row : UsageRecord) (sink : Store.State) : State ρ :=
  { s with sink, booked := s.booked ++ [(id, row)] }

def runtime (s : State ρ) : Runtime := s.system.core.runtime

def settings (s : State ρ) : ServerConfig := s.runtime.config.server

section Lemmas

variable (s : State ρ) {id other : ℕ} (req : Request) (stage : Stage)

@[simp] lemma flights_goto_self : (s.goto id req stage).flights id = some { req, stage } :=
  Function.update_self ..

lemma flights_goto_ne (h : other ≠ id) : (s.goto id req stage).flights other = s.flights other :=
  Function.update_of_ne h ..

end Lemmas

end State

/-! ## The statements between two reads -/

section Statements

variable (serde : SerdeJson) (reader : RequestReader)

/-- The gates of `pre_route` from the body on: they read the pinned snapshot only. -/
def routeBody (rt : Runtime) (auth : AuthContext) (body : Option Bytes) (maxBodyBytes : ℕ) :
    Except Error Routed := do
  let some raw := App.toBytes body maxBodyBytes | .error .payloadTooLarge
  let parsed ← (serde.parse raw).mapError fun e => .badRequest ("invalid JSON: " ++ e)
  let some model := (parsed.get "model").bind Value.asStr | .error (.badRequest "missing `model`")
  let stream := ((parsed.get "stream").bind Value.asBool).getD false
  if !auth.allows model then .error (.modelNotAllowed model)
  else
    match route model fun m => rt.config.models.contains m with
    | .passthrough model =>
        match rt.providers[model]? with
        | some provider => .ok (.passthrough auth raw model stream provider rt)
        | none => .error (.modelNotFound model)
    | .moa recipe =>
        if stream then .error .moaStreamingUnsupported
        else .ok (.moa auth.keyId recipe raw model rt)
    | .unknown model => .error (.modelNotFound model)

/-- A request is turned away before it is routed. -/
def rejected (e : Error) : Stage :=
  .booking (recordRejection e.envelope.status) [] (.ready (errorResponse e))

/-- What a call meets from its start on.  The gates have been passed, and what they read is not
read again; the settings under which a completion is rendered are read later, and nothing that is
taken from here depends on them. -/
def callSurroundings (s : State ρ) (settings : ServerConfig) (now : Instant)
    (answers : Answers) : Surroundings ρ where
  serde := serde
  reader := reader
  runtime := s.runtime
  stateful := s.system.core.stateful
  limiter := { allowed := true, cell := 0 }
  atBody := settings
  atCall := settings
  atReply := settings
  now := now
  unixMs := answers.unixMs
  raw := answers.raw
  chat := answers.chat
  completion := answers.completion

/-- The run of a routed request, where it is one that ends with a completion. -/
def completed (w : Surroundings ρ) (requestId : String) :
    Routed → Option (Moa.MoaRun × ChatResponse)
  | .passthrough .. => none
  | .moa callerKeyId recipe raw model runtime => do
      let request ← (ChatRequest.fromSlice w.serde w.reader raw).toOption
      let run ← (App.orchestrate w requestId callerKeyId recipe model request runtime).1.toOption
      let response ← run.outcome.toOption
      some (run, response)

/-- What a routed request is going to be answered with.  A completion is not rendered yet, since the
rendering reads a live setting. -/
def outcome (w : Surroundings ρ) (requestId : String) (routed : Routed) : Outcome :=
  match completed w requestId routed with
  | some (run, response) => .completion run response
  | none => .ready (App.respond (App.execute w requestId routed).result)

/-- A routed request is through with its upstreams.  What it is going to count and book is settled
here, and then done one item at a time. -/
def executed (s : State ρ) (requestId : String) (routed : Routed) (settings : ServerConfig)
    (now : Instant) (answers : Answers) : Stage :=
  let w := callSurroundings serde reader s settings now answers
  let served := App.execute w requestId routed
  .booking served.metrics served.rows (outcome w requestId routed)

end Statements

/-! ## Steps -/

/-- One step of one party, with its environment's answer.  Requests are numbered, and arrive under a
number nobody has had. -/
inductive Action (ρ : Type)
  | arrive (id : ℕ) (req : Request)
  /-- The snapshot is loaded and the caller looked up in it. -/
  | authenticate (id : ℕ)
  /-- The caller's bucket is asked. -/
  | limit (id : ℕ) (answer : GovernorAnswer)
  /-- The body is read under the live cap, parsed and routed. -/
  | readBody (id : ℕ)
  /-- The live timeout and the clock are read, and the upstreams are called. -/
  | call (id : ℕ) (now : Instant)
  /-- The call is over: what the upstreams did is known. -/
  | finish (id : ℕ) (answers : Answers)
  /-- The next metric, or the next row, is recorded. -/
  | count (id : ℕ)
  | book (id : ℕ)
  /-- Everything is recorded; a completion is rendered under the live settings. -/
  | respond (id : ℕ)
  /-- The handler is dropped at an `await`. -/
  | cancel (id : ℕ)
  /-- A reload, a collection task or a call over a slot moves. -/
  | system (a : Reload.Action ρ)
  /-- The writer thread, or the handle that shuts it down, moves. -/
  | store (a : Store.Action)

variable (serde : SerdeJson) (reader : RequestReader) (calls : ℕ → ℕ → Governed.Call)
  (capacity batch : ℕ)

def step (s : State ρ) : Action ρ → Option (State ρ)
  | .arrive id req =>
      match s.flights id with
      | none => some (s.goto id req .arrived)
      | some _ => none
  | .authenticate id =>
      match s.flights id with
      | some { req, stage := .arrived } =>
          match parseBearer req.authorization >>= authenticate s.runtime.config.keys with
          | .ok auth => some (s.goto id req (.authenticated s.runtime auth))
          | .error e => some (s.goto id req (rejected e))
      | _ => none
  | .limit id answer =>
      match s.flights id with
      | some { req, stage := .authenticated rt auth } =>
          match s.system.core.stateful.checkKeyLimit auth.keyId answer with
          | (stateful, .ok ()) => some ((s.withStateful stateful).goto id req (.limited rt auth))
          | (stateful, .error e) => some ((s.withStateful stateful).goto id req (rejected e))
      | _ => none
  | .readBody id =>
      match s.flights id with
      | some { req, stage := .limited rt auth } =>
          match routeBody serde rt auth req.body s.settings.maxBodyBytes with
          | .ok routed => some (s.goto id req (.routed routed))
          | .error e => some (s.goto id req (rejected e))
      | _ => none
  | .call id now =>
      match s.flights id with
      | some { req, stage := .routed routed } =>
          some (s.goto id req (.calling routed s.settings now))
      | _ => none
  | .finish id answers =>
      match s.flights id with
      | some { req, stage := .calling routed settings now } =>
          some (s.goto id req (executed serde reader s req.requestId routed settings now answers))
      | _ => none
  | .count id =>
      match s.flights id with
      | some { req, stage := .booking (m :: metrics) rows outcome } =>
          some ((s.count id m).goto id req (.booking metrics rows outcome))
      | _ => none
  | .book id =>
      match s.flights id with
      | some { req, stage := .booking metrics (row :: rows) outcome } =>
          ((Store.machine capacity batch).step s.sink (.record row)).map fun sink =>
            (s.book id row sink).goto id req (.booking metrics rows outcome)
      | _ => none
  | .respond id =>
      match s.flights id with
      | some { req, stage := .booking [] [] outcome } =>
          some (s.goto id req (.answered (outcome.render s.settings)))
      | _ => none
  | .cancel id =>
      -- From the outcome on the handler does not wait any more.
      match s.flights id with
      | some { req, stage := .arrived } | some { req, stage := .limited _ _ }
      | some { req, stage := .calling _ _ _ } => some (s.goto id req .dropped)
      | _ => none
  | .system a =>
      match a with
      | .request _ _ => none
      | a => ((Reload.machine calls).step s.system a).map fun system => { s with system }
  | .store a =>
      -- The server holds a sender as long as it runs.
      match a with
      | .record _ | .disconnect => none
      | a => ((Store.machine capacity batch).step s.sink a).map fun sink => { s with sink }

/-- The interleavings of requests, reloads, the writer and the calls over the slots. -/
def machine : Machine (State ρ) (Action ρ) where
  step := step serde reader calls capacity batch

/-- A server that has just started: nobody is in flight, and nothing has been counted or booked. -/
def Started (s : State ρ) : Prop :=
  Reload.Started s.system ∧ (∀ id, s.flights id = none) ∧ s.sink = Store.init ∧
    s.counted = [] ∧ s.booked = []

/-! ## The moves of the server -/

variable {serde : SerdeJson} {reader : RequestReader} {calls : ℕ → ℕ → Governed.Call}
  {capacity batch : ℕ}

variable (serde reader calls capacity batch) in
/-- The ways a server moves from `s`: one for each statement of a request and each way it can go,
and one for each other party. -/
inductive Moves (s : State ρ) : Action ρ → State ρ → Prop
  | arrive {id req} (hf : s.flights id = none) : Moves s (.arrive id req) (s.goto id req .arrived)
  | authenticate {id req auth} (hf : s.flights id = some { req, stage := .arrived })
      (hauth : (parseBearer req.authorization >>= Moaray.authenticate s.runtime.config.keys) =
        .ok auth) :
      Moves s (.authenticate id) (s.goto id req (.authenticated s.runtime auth))
  | unauthorized {id req e} (hf : s.flights id = some { req, stage := .arrived })
      (hauth : (parseBearer req.authorization >>= Moaray.authenticate s.runtime.config.keys) =
        .error e) :
      Moves s (.authenticate id) (s.goto id req (rejected e))
  | limit {id answer req rt auth stateful}
      (hf : s.flights id = some { req, stage := .authenticated rt auth })
      (hlimit : s.system.core.stateful.checkKeyLimit auth.keyId answer = (stateful, .ok ())) :
      Moves s (.limit id answer) ((s.withStateful stateful).goto id req (.limited rt auth))
  | throttle {id answer req rt auth stateful e}
      (hf : s.flights id = some { req, stage := .authenticated rt auth })
      (hlimit : s.system.core.stateful.checkKeyLimit auth.keyId answer = (stateful, .error e)) :
      Moves s (.limit id answer) ((s.withStateful stateful).goto id req (rejected e))
  | readBody {id req rt auth routed} (hf : s.flights id = some { req, stage := .limited rt auth })
      (hroute : routeBody serde rt auth req.body s.settings.maxBodyBytes = .ok routed) :
      Moves s (.readBody id) (s.goto id req (.routed routed))
  | refuseBody {id req rt auth e} (hf : s.flights id = some { req, stage := .limited rt auth })
      (hroute : routeBody serde rt auth req.body s.settings.maxBodyBytes = .error e) :
      Moves s (.readBody id) (s.goto id req (rejected e))
  | call {id now req routed} (hf : s.flights id = some { req, stage := .routed routed }) :
      Moves s (.call id now) (s.goto id req (.calling routed s.settings now))
  | finish {id answers req routed settings now}
      (hf : s.flights id = some { req, stage := .calling routed settings now }) :
      Moves s (.finish id answers)
        (s.goto id req (executed serde reader s req.requestId routed settings now answers))
  | count {id req m metrics rows outcome}
      (hf : s.flights id = some { req, stage := .booking (m :: metrics) rows outcome }) :
      Moves s (.count id) ((s.count id m).goto id req (.booking metrics rows outcome))
  | book {id req metrics row rows outcome sink}
      (hf : s.flights id = some { req, stage := .booking metrics (row :: rows) outcome })
      (hsink : (Store.machine capacity batch).step s.sink (.record row) = some sink) :
      Moves s (.book id) ((s.book id row sink).goto id req (.booking metrics rows outcome))
  | respond {id req outcome} (hf : s.flights id = some { req, stage := .booking [] [] outcome }) :
      Moves s (.respond id) (s.goto id req (.answered (outcome.render s.settings)))
  | cancel {id req stage} (hf : s.flights id = some { req, stage })
      (hwaits : stage = .arrived ∨ (∃ rt auth, stage = .limited rt auth) ∨
        ∃ routed settings now, stage = .calling routed settings now) :
      Moves s (.cancel id) (s.goto id req .dropped)
  | system {a system} (hstep : (Reload.machine calls).step s.system a = some system) :
      Moves s (.system a) { s with system }
  | store {a sink} (hrecord : ∀ row, a ≠ .record row)
      (hstep : (Store.machine capacity batch).step s.sink a = some sink) :
      Moves s (.store a) { s with sink }

/-- Every step is one of these moves.  Invariants are proved by cases on the move and never unfold
`step`. -/
theorem moves_of_step {s t : State ρ} {a : Action ρ}
    (h : (machine serde reader calls capacity batch).step s a = some t) :
    Moves serde reader calls capacity batch s a t := by
  replace h : step serde reader calls capacity batch s a = some t := h
  cases a with
  | arrive id req =>
      simp only [step] at h
      split at h
      · cases h
        exact .arrive ‹_›
      · cases h
  | authenticate id =>
      simp only [step] at h
      split at h
      · split at h
        · cases h
          exact .authenticate ‹_› ‹_›
        · cases h
          exact .unauthorized ‹_› ‹_›
      · cases h
  | limit id answer =>
      simp only [step] at h
      split at h
      · split at h
        · cases h
          exact .limit ‹_› ‹_›
        · cases h
          exact .throttle ‹_› ‹_›
      · cases h
  | readBody id =>
      simp only [step] at h
      split at h
      · split at h
        · cases h
          exact .readBody ‹_› ‹_›
        · cases h
          exact .refuseBody ‹_› ‹_›
      · cases h
  | call id now =>
      simp only [step] at h
      split at h
      · cases h
        exact .call ‹_›
      · cases h
  | finish id answers =>
      simp only [step] at h
      split at h
      · cases h
        exact .finish ‹_›
      · cases h
  | count id =>
      simp only [step] at h
      split at h
      · cases h
        exact .count ‹_›
      · cases h
  | book id =>
      simp only [step] at h
      split at h
      · obtain ⟨sink, hsink, rfl⟩ := Option.map_eq_some_iff.1 h
        exact .book ‹_› hsink
      · cases h
  | respond id =>
      simp only [step] at h
      split at h
      · cases h
        exact .respond ‹_›
      · cases h
  | cancel id =>
      simp only [step] at h
      split at h
      · cases h
        exact .cancel ‹_› (.inl rfl)
      · cases h
        exact .cancel ‹_› (.inr (.inl ⟨_, _, rfl⟩))
      · cases h
        exact .cancel ‹_› (.inr (.inr ⟨_, _, _, rfl⟩))
      · cases h
  | system a =>
      simp only [step] at h
      split at h
      · cases h
      · obtain ⟨system, hsystem, rfl⟩ := Option.map_eq_some_iff.1 h
        exact .system hsystem
  | store a =>
      simp only [step] at h
      split at h
      · cases h
      · cases h
      · rename_i hrecord _
        obtain ⟨sink, hsink, rfl⟩ := Option.map_eq_some_iff.1 h
        exact .store hrecord hsink

/-- The request a step belongs to. -/
def Action.request : Action ρ → Option ℕ
  | .arrive id _ | .authenticate id | .limit id _ | .readBody id | .call id _ | .finish id _
  | .count id | .book id | .respond id | .cancel id => some id
  | .system _ | .store _ => none

/-- A step leaves every other request where it is, and records nothing for it. -/
lemma Moves.other {s t : State ρ} {a : Action ρ}
    (h : Moves serde reader calls capacity batch s a t) {id : ℕ} (hid : a.request ≠ some id) :
    t.flights id = s.flights id ∧
      (t.counted.filter fun c => c.1 = id) = (s.counted.filter fun c => c.1 = id) ∧
      (t.booked.filter fun b => b.1 = id) = (s.booked.filter fun b => b.1 = id) := by
  have hne {other : ℕ} (h : (some other : Option ℕ) ≠ some id) : id ≠ other :=
    fun heq => h (by rw [heq])
  cases h with
  | system | store => exact ⟨rfl, rfl, rfl⟩
  | count =>
      refine ⟨State.flights_goto_ne _ _ _ (hne hid), ?_, rfl⟩
      simp [State.goto, State.count, (hne hid).symm]
  | book =>
      refine ⟨State.flights_goto_ne _ _ _ (hne hid), rfl, ?_⟩
      simp [State.goto, State.book, (hne hid).symm]
  | _ => exact ⟨State.flights_goto_ne _ _ _ (hne hid), rfl, rfl⟩

/-! ## What a request reads -/

/-- A reading of something shared, or of what the upstreams did: all that a request sees of anybody
else. -/
inductive Reading (ρ : Type)
  | snapshot (rt : Runtime)
  | bucket (stateful : StatefulState ρ) (answer : GovernorAnswer)
  | bodyCap (settings : ServerConfig)
  | callTime (settings : ServerConfig) (now : Instant)
  | upstreams (answers : Answers)
  | replyTime (settings : ServerConfig)

/-- The reading a step makes for a request, in the state it is taken in. -/
def reading (id : ℕ) (s : State ρ) : Action ρ → Option (Reading ρ)
  | .authenticate i => if i = id then some (.snapshot s.runtime) else none
  | .limit i answer => if i = id then some (.bucket s.system.core.stateful answer) else none
  | .readBody i => if i = id then some (.bodyCap s.settings) else none
  | .call i now => if i = id then some (.callTime s.settings now) else none
  | .finish i answers => if i = id then some (.upstreams answers) else none
  | .respond i =>
      -- A response that stands is sent as it is; only a completion is rendered here.
      if i = id then
        match s.flights i with
        | some { req := _, stage := .booking _ _ (.completion _ _) } =>
            some (.replyTime s.settings)
        | _ => none
      else none
  | _ => none

variable (serde reader calls capacity batch) in
/-- The readings a run makes for a request, in order. -/
def readings (id : ℕ) (s : State ρ) (as : List (Action ρ)) : List (Reading ρ) :=
  (machine serde reader calls capacity batch).ghost
    (fun log u a _ => log ++ (reading id u a).toList) [] s as

lemma reading_other {id : ℕ} {s : State ρ} {a : Action ρ} (hid : a.request ≠ some id) :
    reading id s a = none := by
  cases a with
  | authenticate | limit | readBody | call | finish | respond =>
      exact if_neg fun heq => hid (by rw [← heq]; rfl)
  | _ => rfl

end Server

end Moaray
