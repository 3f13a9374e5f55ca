import Moaray.Gateway.Auth
import Moaray.Gateway.Registry

/-!
# Hot reload

A reload reads the configuration file, ensures the slots of the new configuration, builds its
providers, installs the buckets of its keys, publishes, and then reclaims what is no longer
limited.  Orphaned slots are left to a task that runs after a drain window, under the lock the
reloads hold.

* `ConfigReloader.apply`, `ConfigReloader.reload` — the source's functions, run without a break.
* `Reload.machine` — the same reload one statement at a time, interleaved with the calls over the
  slots, with inbound requests, and with the tasks of earlier reloads.
* `Reload.Moves` — what one step of that system can do.
* `Reload.run_apply`, `Reload.run_reload` — a reload nothing interrupts is `apply`, and `reload`.
* `Reload.run_deref` — an object is touched by its own traffic and by nothing else.

The lock serialises reloads and collections, so at most one of them is somewhere in the middle;
requests and calls take no lock, and run between any two of its statements.  `Stage` is where the
holder of the lock stands, with its locals.  What is published changes in one step, and between
that step and the one that remembers the build, the two disagree.

**Design.**  The source's functions and the interleaved system are both written down, and
`run_reload` says that they compute the same when nothing interferes.  So the functions can be
checked against the source line by line, and everything proved of the system holds with
interference.

The world a reload finds, the file, the environment and the platform, is in its action: two reloads
may find different ones.
-/

namespace Moaray

open Framework

variable {ρ : Type}

/-- The hot-swappable, atomically published snapshot: a request that has loaded it sees one
configuration to its end. -/
structure Runtime where
  config : RuntimeConfig
  providers : Table String ProviderRef
  orchestrator : Orchestrator ProviderRef

/-- What a successful reload changed, in numbers; the reload endpoint reports it. -/
structure ReloadOutcome where
  upstreamsAdded : ℕ
  upstreamsUnchanged : ℕ
  upstreamsRemoved : ℕ
  providersReused : ℕ
  providersBuilt : ℕ
  deriving DecidableEq, Repr

/-- Why a reload failed: at the file, at its content, or at the build.  The last one cannot happen
in a reachable state. -/
inductive ReloadError
  | unreadable (path reason : String)
  | invalid (e : ConfigError)
  | missingSlot (e : MissingSlot)
  deriving DecidableEq, Repr

/-- What a reload finds outside the process, at the time it looks: the file, the environment, and
how texts are read. -/
structure World where
  /-- `read_to_string`: the file's content, or the reason it cannot be read. -/
  readToString : String → Except String String
  /-- The YAML reader of the document type. -/
  fromStr : String → Except String ConfigDoc
  platform : Platform

/-- Everything a reload needs: the state that survives it, what is published, and the build that is
remembered. -/
structure ConfigReloader (ρ : Type) where
  stateful : StatefulState ρ
  runtime : Runtime
  configPath : String
  /-- The previous build, for reuse. -/
  lastBuilt : Table String BuiltProvider
  /-- The serial number of the next provider. -/
  nextSerial : ℕ
  /-- Collection tasks that have been spawned and have not run. -/
  pendingGc : ℕ

/-! ## Reading -/

/-- Parse YAML, without validation. -/
def parseYaml (w : World) (yaml : String) : Except ConfigError ConfigDoc :=
  (w.fromStr yaml).mapError .parse

/-- Parse and validate YAML. -/
def loadYaml (w : World) (yaml : String) : Except ConfigError RuntimeConfig := do
  let doc ← parseYaml w yaml
  validate w.platform doc

/-- Step 1 of a reload: read and validate.  It touches nothing of the running server, so a failure
here leaves everything. -/
def readConfig (w : World) (path : String) : Except ReloadError RuntimeConfig := do
  let yaml ← (w.readToString path).mapError (.unreadable path)
  (loadYaml w yaml).mapError .invalid

/-- Whatever the file contains, what is read from it is validated. -/
lemma validated_of_readConfig {w : World} {path : String} {new : RuntimeConfig}
    (h : readConfig w path = .ok new) : Validated w.platform new := by
  obtain ⟨yaml, -, hload⟩ := bind_eq_ok.1 h
  obtain ⟨doc, -, hvalid⟩ := bind_eq_ok.1 (mapError_eq_ok.1 hload)
  exact ⟨doc, hvalid⟩

/-! ## Applying -/

/-- The upstream identities of a configuration. -/
def stateKeys (config : RuntimeConfig) : Finset String :=
  ((Table.rows config.models).map ModelConfig.stateKey).toFinset

/-- The configuration a reload publishes: the usage store is frozen at startup, and carried over
from what was published before. -/
def publishedConfig (new prev : RuntimeConfig) : RuntimeConfig :=
  { new with server := { new.server with usageStore := prev.server.usageStore } }

/-- The runtime made of a configuration and its build. -/
def runtimeOf (config published : RuntimeConfig) (built : Table String BuiltProvider) :
    Runtime where
  config := published
  providers := built.map fun _ b => b.ref
  orchestrator := buildOrchestratorFromBuilt config built

/-- How many providers of a build are those of the previous one. -/
def countReused (lastBuilt built : Table String BuiltProvider) : ℕ :=
  built.toList.countP fun row =>
    (lastBuilt[row.1]?).any fun p => p.ref.serial == row.2.ref.serial

/-- The summary of a reload. -/
def reloadOutcome (new prev : RuntimeConfig) (lastBuilt built : Table String BuiltProvider) :
    ReloadOutcome where
  upstreamsAdded := (stateKeys new \ stateKeys prev).card
  upstreamsUnchanged := (stateKeys new ∩ stateKeys prev).card
  upstreamsRemoved := (stateKeys prev \ stateKeys new).card
  providersReused := countReused lastBuilt built
  providersBuilt := built.size - countReused lastBuilt built

/-- The collection tasks after a reload: one more when it removed an identity.  They are counted, as
each of them runs once. -/
def spawnGc (removed pending : ℕ) : ℕ := if 0 < removed then pending + 1 else pending

namespace ConfigReloader

/-- Steps 3 to 6 of a reload, for a validated configuration.  A failed build keeps the slots that
were ensured and publishes nothing. -/
def apply (env : String → Option String) (new : RuntimeConfig) (r : ConfigReloader ρ) :
    Except ReloadError ReloadOutcome × ConfigReloader ρ :=
  let prev := r.runtime.config
  -- State first: a slot for every identity.
  let ensured := r.stateful.ensureForConfig new
  match buildProvidersWith env new ensured (some r.lastBuilt) r.nextSerial with
  | .error e => (.error (.missingSlot e), { r with stateful := ensured })
  | .ok built =>
      let outcome := reloadOutcome new prev r.lastBuilt built.providers
      let installed := (ensured.installKeyLimiters new).1
      let retained := (installed.retainKeyLimiters new).1
      (.ok outcome,
        { r with
          stateful := retained
          runtime := runtimeOf new (publishedConfig new prev) built.providers
          lastBuilt := built.providers
          nextSerial := built.next
          pendingGc := spawnGc outcome.upstreamsRemoved r.pendingGc })

/-- Re-read the configuration file and apply it.  This is the whole function; the machine below
takes it statement by statement. -/
def reload (w : World) (r : ConfigReloader ρ) :
    Except ReloadError ReloadOutcome × ConfigReloader ρ :=
  match readConfig w r.configPath with
  | .error e => (.error e, r)
  | .ok new => apply w.platform.env new r

/-- A collection task, once its window has elapsed and it holds the lock. -/
def collect (r : ConfigReloader ρ) : ConfigReloader ρ :=
  { r with
    stateful := (r.stateful.retainForConfig r.runtime.config).1
    pendingGc := r.pendingGc - 1 }

/-- The reloader of a starting server.  It builds with no previous build to reuse from, and
publishes the configuration as it was read. -/
def startup (env : String → Option String) (config : RuntimeConfig) (configPath : String) :
    Except ReloadError (ConfigReloader ρ) :=
  let stateful := StatefulState.fromConfig config
  match buildProvidersWith env config stateful none 0 with
  | .error e => .error (.missingSlot e)
  | .ok built =>
      .ok
        { stateful, runtime := runtimeOf config config built.providers, configPath,
          lastBuilt := built.providers, nextSerial := built.next, pendingGc := 0 }

variable {env : String → Option String} {new : RuntimeConfig} {r : ConfigReloader ρ}

lemma apply_error {e : MissingSlot} (h : buildProvidersWith env new
    (r.stateful.ensureForConfig new) (some r.lastBuilt) r.nextSerial = .error e) :
    r.apply env new =
      (.error (.missingSlot e), { r with stateful := r.stateful.ensureForConfig new }) := by
  simp only [apply, h]

lemma apply_ok {built : Build} (h : buildProvidersWith env new
    (r.stateful.ensureForConfig new) (some r.lastBuilt) r.nextSerial = .ok built) :
    r.apply env new =
      (.ok (reloadOutcome new r.runtime.config r.lastBuilt built.providers),
        { r with
          stateful :=
            (((r.stateful.ensureForConfig new).installKeyLimiters new).1.retainKeyLimiters new).1
          runtime := runtimeOf new (publishedConfig new r.runtime.config) built.providers
          lastBuilt := built.providers
          nextSerial := built.next
          pendingGc :=
            spawnGc (stateKeys r.runtime.config \ stateKeys new).card r.pendingGc }) := by
  simp only [apply, h]
  rfl

end ConfigReloader

/-! ## The interleaved system -/

namespace Reload

/-- The locals of a running reload, from the read on.  `prev` is what was published when it began.
-/
structure Job where
  env : String → Option String
  new : RuntimeConfig
  prev : RuntimeConfig

/-- Where the holder of the reload lock stands, between two of its statements.  The loops over
models and keys stop after each entry. -/
inductive Stage
  /-- Nobody holds the lock. -/
  | idle
  /-- Step 3, with the models left to visit. -/
  | ensuring (job : Job) (todo : List ModelConfig)
  /-- Step 4b, with the keys left to visit. -/
  | installing (job : Job) (built : Table String BuiltProvider) (outcome : ReloadOutcome)
      (todo : List KeyConfig)
  /-- Step 5 is done; the build is about to be remembered. -/
  | published (job : Job) (built : Table String BuiltProvider) (outcome : ReloadOutcome)
  /-- Step 6 is left. -/
  | remembered (job : Job) (outcome : ReloadOutcome)

/-- The reload that is running. -/
def Stage.job : Stage → Option Job
  | .idle => none
  | .ensuring job _ | .installing job _ _ _ | .published job _ _ | .remembered job _ => some job

/-- The server, as far as reloads reach: what they work on, where the holder of the lock stands, and
what the last one returned. -/
structure System (ρ : Type) where
  core : ConfigReloader ρ
  stage : Stage
  /-- What the last reload returned. -/
  result : Option (Except ReloadError ReloadOutcome)

namespace System

def slots (s : System ρ) : Pool String (Governed.State ρ) := s.core.stateful.perUpstream

def buckets (s : System ρ) : Pool String TokenBucket := s.core.stateful.perKey

def config (s : System ρ) : RuntimeConfig := s.core.runtime.config

def withSlots (s : System ρ) (slots : Pool String (Governed.State ρ)) : System ρ :=
  { s with core := { s.core with stateful := { s.core.stateful with perUpstream := slots } } }

def withBuckets (s : System ρ) (buckets : Pool String TokenBucket) : System ρ :=
  { s with core := { s.core with stateful := { s.core.stateful with perKey := buckets } } }

def goto (s : System ρ) (stage : Stage) : System ρ := { s with stage := stage }

def returning (s : System ρ) (result : Except ReloadError ReloadOutcome) : System ρ :=
  { s with stage := .idle, result := some result }

section Lemmas

variable (s : System ρ) (P : Pool String (Governed.State ρ)) (B : Pool String TokenBucket)
  (stage : Stage) (res : Except ReloadError ReloadOutcome)

@[simp] lemma slots_withSlots : (s.withSlots P).slots = P := rfl

@[simp] lemma buckets_withBuckets : (s.withBuckets B).buckets = B := rfl

@[simp] lemma slots_goto : (s.goto stage).slots = s.slots := rfl

@[simp] lemma buckets_goto : (s.goto stage).buckets = s.buckets := rfl

end Lemmas

/-- Step 4: build the providers, or fail closed. -/
def build (s : System ρ) (job : Job) : System ρ :=
  match buildProvidersWith job.env job.new s.core.stateful (some s.core.lastBuilt)
      s.core.nextSerial with
  | .error e => s.returning (.error (.missingSlot e))
  | .ok built =>
      let outcome := reloadOutcome job.new job.prev s.core.lastBuilt built.providers
      { s with
        core := { s.core with nextSerial := built.next }
        stage := .installing job built.providers outcome job.new.keys }

/-- Step 5: swap the runtime in.  From here on requests that take a snapshot take the new one. -/
def publish (s : System ρ) (job : Job) (built : Table String BuiltProvider)
    (outcome : ReloadOutcome) : System ρ :=
  { s with
    core := { s.core with runtime := runtimeOf job.new (publishedConfig job.new job.prev) built }
    stage := .published job built outcome }

/-- Remember the build, for the next reload to reuse from. -/
def remember (s : System ρ) (job : Job) (built : Table String BuiltProvider)
    (outcome : ReloadOutcome) : System ρ :=
  { s with
    core := { s.core with lastBuilt := built }
    stage := .remembered job outcome }

/-- Step 6: reclaim the buckets, spawn the collection task, return. -/
def finish (s : System ρ) (job : Job) (outcome : ReloadOutcome) : System ρ :=
  { core :=
      { s.core with
        stateful := (s.core.stateful.retainKeyLimiters job.new).1
        pendingGc := spawnGc outcome.upstreamsRemoved s.core.pendingGc }
    stage := .idle
    result := some (.ok outcome) }

/-- A collection task runs. -/
def collect (s : System ρ) : System ρ := { s with core := s.core.collect }

/-- An inbound request: authenticate against the published keys, then spend a token. -/
def request (s : System ρ) (presented : String) (answer : GovernorAnswer) : System ρ :=
  match authenticate s.config.keys presented with
  | .ok auth =>
      { s with
        core := { s.core with stateful := (s.core.stateful.checkKeyLimit auth.keyId answer).1 } }
  | .error _ => s

end System

/-- One step of the server: of the lock's holder, of a collection, of a call over a slot, or of a
request. -/
inductive Action (ρ : Type)
  /-- A reload takes the lock and reads the file. -/
  | reload (w : World)
  /-- The reload that holds the lock executes its next statement. -/
  | advance
  /-- A collection task takes the lock and runs. -/
  | gc
  /-- A call over a slot takes a step. -/
  | upstream (slot : ℕ) (a : Governed.Action ρ)
  /-- A request presents a token, and the limiter answers. -/
  | request (presented : String) (answer : GovernorAnswer)

variable (calls : ℕ → ℕ → Governed.Call)

/-- One step of the system; `calls` are the calls over each slot. -/
def step (s : System ρ) : Action ρ → Option (System ρ)
  | .reload w =>
      match s.stage with
      | .idle =>
          match readConfig w s.core.configPath with
          | .error e => some (s.returning (.error e))
          | .ok new =>
              some (s.goto (.ensuring { env := w.platform.env, new, prev := s.config }
                (Table.rows new.models)))
      | _ => none
  | .advance =>
      match s.stage with
      | .idle => none
      | .ensuring job (m :: todo) =>
          let slots := StatefulState.ensureModel job.new.server.breaker s.slots m
          some ((s.withSlots slots).goto (.ensuring job todo))
      | .ensuring job [] => some (s.build job)
      | .installing job built outcome (k :: todo) =>
          let buckets := (StatefulState.installKey (s.buckets, 0) k).1
          some ((s.withBuckets buckets).goto (.installing job built outcome todo))
      | .installing job built outcome [] => some (s.publish job built outcome)
      | .published job built outcome => some (s.remember job built outcome)
      | .remembered job outcome => some (s.finish job outcome)
  | .gc =>
      match s.stage with
      | .idle => if 0 < s.core.pendingGc then some s.collect else none
      | _ => none
  | .upstream r a =>
      match s.slots.deref r with
      | some slot =>
          ((Governed.machine (calls r)).step slot a).map fun slot' =>
            s.withSlots (s.slots.update r slot')
      | none => none
  | .request presented answer => some (s.request presented answer)

/-- The interleavings of reloads, collections, calls and requests. -/
def machine : Machine (System ρ) (Action ρ) where
  step := step calls

/-- A server that has just started from a validated configuration, with no reload under way. -/
def Started (s : System ρ) : Prop :=
  ∃ P config path, Validated P config ∧
    ConfigReloader.startup P.env config path = .ok s.core ∧ s.stage = .idle ∧ s.result = none

/-- What one step can do, with what it found among its premises.  Invariants of the reloader are
proved by cases on it. -/
inductive Moves (s : System ρ) : Action ρ → System ρ → Prop
  | reject {w e} (hs : s.stage = .idle) (hread : readConfig w s.core.configPath = .error e) :
      Moves s (.reload w) (s.returning (.error e))
  | start {w new} (hs : s.stage = .idle) (hread : readConfig w s.core.configPath = .ok new) :
      Moves s (.reload w) (s.goto
        (.ensuring { env := w.platform.env, new, prev := s.config } (Table.rows new.models)))
  | ensure {job m todo} (hs : s.stage = .ensuring job (m :: todo)) :
      Moves s .advance
        ((s.withSlots (s.slots.ensure governanceOf freshSlot m.stateKey
          (UpstreamGovernance.of m job.new.server.breaker))).goto (.ensuring job todo))
  | build {job} (hs : s.stage = .ensuring job []) : Moves s .advance (s.build job)
  | install {job built outcome k todo} (hs : s.stage = .installing job built outcome (k :: todo)) :
      Moves s .advance
        ((s.withBuckets (StatefulState.installKey (s.buckets, 0) k).1).goto
          (.installing job built outcome todo))
  | publish {job built outcome} (hs : s.stage = .installing job built outcome []) :
      Moves s .advance (s.publish job built outcome)
  | remember {job built outcome} (hs : s.stage = .published job built outcome) :
      Moves s .advance (s.remember job built outcome)
  | finish {job outcome} (hs : s.stage = .remembered job outcome) :
      Moves s .advance (s.finish job outcome)
  | collect (hs : s.stage = .idle) (hgc : 0 < s.core.pendingGc) : Moves s .gc s.collect
  | upstream {r slot a slot'} (hr : s.slots.deref r = some slot)
      (ha : (Governed.machine (calls r)).step slot a = some slot') :
      Moves s (.upstream r a) (s.withSlots (s.slots.update r slot'))
  | request {presented answer} :
      Moves s (.request presented answer) (s.request presented answer)

variable {calls} in
/-- Every step is one of these moves. -/
lemma moves_of_step {s t : System ρ} {a : Action ρ} (h : (machine calls).step s a = some t) :
    Moves calls s a t := by
  replace h : step calls s a = some t := h
  cases a with
  | reload w =>
      simp only [step] at h
      split at h
      · rename_i hs
        split at h
        · rename_i hread
          cases h
          exact .reject hs hread
        · rename_i hread
          cases h
          exact .start hs hread
      · cases h
  | advance =>
      simp only [step] at h
      split at h
      · cases h
      · rename_i hs
        cases h
        exact .ensure hs
      · rename_i hs
        cases h
        exact .build hs
      · rename_i hs
        cases h
        exact .install hs
      · rename_i hs
        cases h
        exact .publish hs
      · rename_i hs
        cases h
        exact .remember hs
      · rename_i hs
        cases h
        exact .finish hs
  | gc =>
      simp only [step] at h
      split at h
      · rename_i hs
        split at h
        · rename_i hgc
          cases h
          exact .collect hs hgc
        · cases h
      · cases h
  | upstream r a =>
      simp only [step] at h
      split at h
      · rename_i slot hr
        obtain ⟨slot', ha, rfl⟩ := Option.map_eq_some_iff.1 h
        exact .upstream hr ha
      · cases h
  | request presented answer =>
      cases h
      exact .request

/-! ## What the steps leave alone -/

namespace System

variable (s : System ρ) (job : Job) (built : Table String BuiltProvider) (outcome : ReloadOutcome)

variable {s job} in
lemma build_error {e : MissingSlot} (h : buildProvidersWith job.env job.new s.core.stateful
    (some s.core.lastBuilt) s.core.nextSerial = .error e) :
    s.build job = s.returning (.error (.missingSlot e)) := by
  unfold build
  rw [h]

variable {s job} in
lemma build_ok {built : Build} (h : buildProvidersWith job.env job.new s.core.stateful
    (some s.core.lastBuilt) s.core.nextSerial = .ok built) :
    s.build job =
      { s with
        core := { s.core with nextSerial := built.next }
        stage := .installing job built.providers
          (reloadOutcome job.new job.prev s.core.lastBuilt built.providers) job.new.keys } := by
  unfold build
  rw [h]

lemma slots_build : (s.build job).slots = s.slots := by
  unfold build
  split <;> rfl

lemma buckets_build : (s.build job).buckets = s.buckets := by
  unfold build
  split <;> rfl

lemma config_build : (s.build job).config = s.config := by
  unfold build
  split <;> rfl

@[simp] lemma buckets_finish :
    (s.finish job outcome).buckets = s.buckets.retain (StatefulState.liveKey job.new) := rfl

lemma request_cases (presented : String) (answer : GovernorAnswer) :
    s.request presented answer = s ∨
      ∃ r b, s.buckets.deref r = some b ∧
        s.request presented answer = s.withBuckets (s.buckets.update r (b.check answer).1) := by
  unfold request StatefulState.checkKeyLimit
  split
  · rename_i auth _
    dsimp only []
    split
    · rename_i r _
      split
      · rename_i b hb
        exact .inr ⟨r, b, hb, rfl⟩
      · exact .inl rfl
    · exact .inl rfl
  · exact .inl rfl

lemma slots_request (presented : String) (answer : GovernorAnswer) :
    (s.request presented answer).slots = s.slots := by
  rcases s.request_cases presented answer with h | ⟨r, b, -, h⟩ <;> rw [h]
  rfl

lemma config_request (presented : String) (answer : GovernorAnswer) :
    (s.request presented answer).config = s.config := by
  rcases s.request_cases presented answer with h | ⟨r, b, -, h⟩ <;> rw [h]
  rfl

lemma stage_request (presented : String) (answer : GovernorAnswer) :
    (s.request presented answer).stage = s.stage := by
  rcases s.request_cases presented answer with h | ⟨r, b, -, h⟩ <;> rw [h]
  rfl

end System

/-! ## A reload that nothing interrupts -/

section Uninterrupted

lemma run_ensuring (s : System ρ) (job : Job) (todo : List ModelConfig) :
    (machine calls).run (s.goto (.ensuring job todo)) (List.replicate todo.length .advance) =
      some ((s.withSlots (todo.foldl (StatefulState.ensureModel job.new.server.breaker)
        s.slots)).goto (.ensuring job [])) := by
  induction todo generalizing s with
  | nil => rfl
  | cons m todo ih =>
      let slots := StatefulState.ensureModel job.new.server.breaker s.slots m
      have hstep : (machine calls).step (s.goto (.ensuring job (m :: todo))) .advance =
          some ((s.withSlots slots).goto (.ensuring job todo)) := rfl
      rw [List.length_cons, List.replicate_succ, Machine.run_cons, hstep, Option.bind_some, ih]
      rfl

lemma installKey_fst (acc : Pool String TokenBucket × ℕ) (k : KeyConfig) :
    (StatefulState.installKey acc k).1 = (StatefulState.installKey (acc.1, 0) k).1 := by
  rw [StatefulState.installKey_eq, StatefulState.installKey_eq]

lemma run_installing (s : System ρ) (job : Job) (built : Table String BuiltProvider)
    (outcome : ReloadOutcome) (todo : List KeyConfig) (n : ℕ) :
    (machine calls).run (s.goto (.installing job built outcome todo))
        (List.replicate todo.length .advance) =
      some ((s.withBuckets (todo.foldl StatefulState.installKey (s.buckets, n)).1).goto
        (.installing job built outcome [])) := by
  induction todo generalizing s n with
  | nil => rfl
  | cons k todo ih =>
      let acc := StatefulState.installKey (s.buckets, n) k
      have hstep : (machine calls).step (s.goto (.installing job built outcome (k :: todo)))
          .advance = some ((s.withBuckets acc.1).goto (.installing job built outcome todo)) := by
        rw [show acc.1 = _ from installKey_fst (s.buckets, n) k]
        rfl
      rw [List.length_cons, List.replicate_succ, Machine.run_cons, hstep, Option.bind_some,
        ih (s.withBuckets acc.1) acc.2]
      rfl

/-- Uninterrupted, the steps after the read compute `apply`, and leave the lock free.  The machine
thus refines the function of the source when nothing comes in between. -/
theorem run_apply {s : System ρ} {w : World} {new : RuntimeConfig} (hs : s.stage = .idle)
    (hread : readConfig w s.core.configPath = .ok new) :
    ∃ n, (machine calls).run s (.reload w :: List.replicate n .advance) =
      some
        { core := (s.core.apply w.platform.env new).2, stage := .idle,
          result := some (s.core.apply w.platform.env new).1 } := by
  let job : Job := { env := w.platform.env, new, prev := s.config }
  let rows := Table.rows new.models
  let ensured := s.core.stateful.ensureForConfig new
  let s₁ := s.withSlots ensured.perUpstream
  have hstart : (machine calls).step s (.reload w) = some (s.goto (.ensuring job rows)) := by
    show step calls s (.reload w) = _
    simp only [step, hs, hread]
    rfl
  have hensure : (machine calls).run (s.goto (.ensuring job rows))
      (List.replicate rows.length .advance) = some (s₁.goto (.ensuring job [])) :=
    run_ensuring calls s job rows
  have hbuild : (machine calls).step (s₁.goto (.ensuring job [])) .advance =
      some ((s₁.goto (.ensuring job [])).build job) := rfl
  cases hb : buildProvidersWith w.platform.env new ensured (some s.core.lastBuilt)
      s.core.nextSerial with
  | error e =>
      refine ⟨rows.length + 1, ?_⟩
      have happly : s.core.apply w.platform.env new =
          (.error (.missingSlot e), { s.core with stateful := ensured }) :=
        ConfigReloader.apply_error hb
      have hstop : (s₁.goto (.ensuring job [])).build job =
          s₁.returning (.error (.missingSlot e)) :=
        System.build_error hb
      rw [Machine.run_cons, hstart, Option.bind_some, List.replicate_succ', Machine.run_append,
        hensure, Option.bind_some, Machine.run_singleton, hbuild, hstop, happly]
      rfl
  | ok built =>
      let outcome := reloadOutcome new s.config s.core.lastBuilt built.providers
      let s₂ : System ρ := { s₁ with core := { s₁.core with nextSerial := built.next } }
      have hgo : (s₁.goto (.ensuring job [])).build job =
          s₂.goto (.installing job built.providers outcome new.keys) :=
        System.build_ok hb
      have hinstall := run_installing calls s₂ job built.providers outcome new.keys 0
      refine ⟨rows.length + (1 + (new.keys.length + 3)), ?_⟩
      rw [Machine.run_cons, hstart, Option.bind_some, List.replicate_add, Machine.run_append,
        hensure, Option.bind_some, List.replicate_add, Machine.run_append, List.replicate_one,
        Machine.run_singleton, hbuild, Option.bind_some, hgo, List.replicate_add,
        Machine.run_append, hinstall, Option.bind_some, ConfigReloader.apply_ok hb]
      rfl

/-- Uninterrupted, a reload computes `ConfigReloader.reload`: the same result, and the same state.
-/
theorem run_reload {s : System ρ} (w : World) (hs : s.stage = .idle) :
    ∃ n, (machine calls).run s (.reload w :: List.replicate n .advance) =
      some
        { core := (s.core.reload w).2, stage := .idle, result := some (s.core.reload w).1 } := by
  cases hread : readConfig w s.core.configPath with
  | error e =>
      refine ⟨0, ?_⟩
      have hstep : (machine calls).step s (.reload w) = some (s.returning (.error e)) := by
        show step calls s (.reload w) = _
        simp only [step, hs, hread]
      rw [List.replicate_zero, Machine.run_singleton, hstep]
      simp only [ConfigReloader.reload, hread]
      rfl
  | ok new =>
      obtain ⟨n, hn⟩ := run_apply calls hs hread
      refine ⟨n, hn.trans ?_⟩
      simp only [ConfigReloader.reload, hread]

end Uninterrupted

/-! ## Every object sees its own traffic only -/

/-- The step of a call over slot `r`, if the action is one. -/
def traffic (r : ℕ) : Action ρ → Option (Governed.Action ρ)
  | .upstream q a => if q = r then some a else none
  | _ => none

section Traffic

variable {calls} {s t : System ρ} {a : Action ρ} {r : ℕ} {slot : Governed.State ρ}

/-- An object steps when its traffic does; nothing else touches it. -/
lemma Moves.deref (h : Moves calls s a t) (hr : s.slots.deref r = some slot) :
    ∃ slot', t.slots.deref r = some slot' ∧
      (Governed.machine (calls r)).run slot (traffic r a).toList = some slot' := by
  cases h with
  | ensure hs => exact ⟨slot, Pool.deref_mono Pool.cells_prefix_ensure hr, rfl⟩
  | build hs => exact ⟨slot, by rw [System.slots_build, hr], rfl⟩
  | @upstream q before a after hq ha =>
      by_cases hqr : q = r
      · subst hqr
        obtain rfl : slot = before := by simpa [hr] using hq
        refine ⟨after, Pool.deref_update_self _ _ _ (Pool.deref_lt hr), ?_⟩
        simpa [traffic] using ha
      · refine ⟨slot, ?_, by simp [traffic, hqr]⟩
        rw [System.slots_withSlots, Pool.deref_update_ne _ _ _ (Ne.symm hqr), hr]
  | request => exact ⟨slot, by rw [System.slots_request, hr], rfl⟩
  | _ => exact ⟨slot, hr, rfl⟩

/-- Over a whole run, an object goes through a run of its own traffic.  Facts about the calls over
one slot are carried over to the server by it. -/
theorem run_deref {as : List (Action ρ)} (h : (machine calls).run s as = some t)
    (hr : s.slots.deref r = some slot) :
    ∃ slot', t.slots.deref r = some slot' ∧
      (Governed.machine (calls r)).run slot (as.filterMap (traffic r)) = some slot' := by
  induction as generalizing s slot with
  | nil =>
      obtain rfl : s = t := by simpa using h
      exact ⟨slot, hr, rfl⟩
  | cons a as ih =>
      obtain ⟨u, hu, hrest⟩ := (machine calls).run_cons_eq_some.1 h
      obtain ⟨mid, hmid, hone⟩ := (moves_of_step hu).deref hr
      obtain ⟨slot', hslot', hrun⟩ := ih hrest hmid
      refine ⟨slot', hslot', ?_⟩
      have hsplit : (a :: as).filterMap (traffic r) =
          (traffic r a).toList ++ as.filterMap (traffic r) := by
        cases ha : traffic r a <;> simp [ha]
      rw [hsplit, Machine.run_append, hone]
      exact hrun

/-- Objects do not go away: one that does not exist in the end never did. -/
lemma deref_eq_none_of_run {as : List (Action ρ)} (h : (machine calls).run s as = some t)
    (hr : t.slots.deref r = none) : s.slots.deref r = none := by
  cases hs : s.slots.deref r with
  | none => rfl
  | some slot =>
      obtain ⟨slot', hslot', -⟩ := run_deref h hs
      rw [hslot'] at hr
      cases hr

/-- An object that does not exist yet has had no traffic. -/
lemma traffic_eq_nil {as : List (Action ρ)} (h : (machine calls).run s as = some t)
    (hr : t.slots.deref r = none) : as.filterMap (traffic r) = [] := by
  induction as generalizing s with
  | nil => rfl
  | cons a as ih =>
      have habsent : s.slots.deref r = none := deref_eq_none_of_run h hr
      obtain ⟨u, hu, hrest⟩ := (machine calls).run_cons_eq_some.1 h
      have ha : traffic r a = none := by
        cases moves_of_step hu with
        | @upstream q before a after hq _ =>
            by_cases hqr : q = r
            · subst hqr
              rw [habsent] at hq
              cases hq
            · simp [traffic, hqr]
        | _ => rfl
      rw [List.filterMap_cons_none ha, ih hrest]

end Traffic

end Reload

end Moaray
