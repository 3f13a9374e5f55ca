import Moaray.Gateway.Coherence

/-!
# Warnings about restart-frozen fields

Some server fields are read once, when the process starts.  A reload compares them with those of
the published configuration and warns where they differ.  Of these fields only the usage store is
carried over into the next published configuration.

* `FrozenField`, `frozenFieldChanges` — the fields, and those a reload warns about.
* `reportsFrom`, `Carries` — the warnings, and what is published, from the configurations that were
  read; `carries_of_run`.
* `Restless` — a field that no reload brings back to its value of before, except to the one
  running.
* `frozen_reported_iff` — the runs in which every warning compares with what is running.

The published configuration takes three of the four fields from the file, so from the second reload
on a warning compares with what the previous file said.  That comes to the same as comparing with
what is running as long as the previous value was the running one, or the new one differs from
both.

**Design.**  A run of the server is an interleaving with traffic, but its warnings depend on the
configurations that were read and on nothing else: `reportsFrom` computes them from these, and
`carries_of_run` says so for every run.  The condition is then about a list of configurations.
-/

namespace Moaray

open Framework

variable {ρ : Type}

/-! ## The fields -/

/-- The server fields that need a restart: they are read when the process starts.  A reload only
compares them. -/
inductive FrozenField
  | bind
  | port
  | shutdownGraceMs
  | usageStore
  deriving DecidableEq, Repr

namespace FrozenField

/-- The field, as the warning names it. -/
def name : FrozenField → String
  | bind => "bind"
  | port => "port"
  | shutdownGraceMs => "shutdown_grace_ms"
  | usageStore => "usage_store"

/-- The two configurations agree on the field. -/
def Same : FrozenField → RuntimeConfig → RuntimeConfig → Prop
  | bind, c, c' => c.server.bind = c'.server.bind
  | port, c, c' => c.server.port = c'.server.port
  | shutdownGraceMs, c, c' => c.server.shutdownGraceMs = c'.server.shutdownGraceMs
  | usageStore, c, c' => c.server.usageStore = c'.server.usageStore

instance (f : FrozenField) (c c' : RuntimeConfig) : Decidable (f.Same c c') :=
  match f with
  | bind => inferInstanceAs (Decidable (c.server.bind = c'.server.bind))
  | port => inferInstanceAs (Decidable (c.server.port = c'.server.port))
  | shutdownGraceMs =>
      inferInstanceAs (Decidable (c.server.shutdownGraceMs = c'.server.shutdownGraceMs))
  | usageStore => inferInstanceAs (Decidable (c.server.usageStore = c'.server.usageStore))

section Same

variable {f : FrozenField} {c c' c'' : RuntimeConfig}

lemma Same.refl (f : FrozenField) (c : RuntimeConfig) : f.Same c c := by
  cases f <;> rfl

lemma Same.symm (h : f.Same c c') : f.Same c' c := by
  cases f <;> exact Eq.symm h

lemma Same.trans (h : f.Same c c') (h' : f.Same c' c'') : f.Same c c'' := by
  cases f <;> exact Eq.trans h h'

/-- Comparing with another value comes to the same just when that is no other value, or what is
compared is neither. -/
lemma same_iff_same_iff :
    (f.Same c' c'' ↔ f.Same c c'') ↔ f.Same c c' ∨ ¬ f.Same c' c'' ∧ ¬ f.Same c c'' := by
  constructor
  · intro h
    by_cases hnew : f.Same c c''
    · exact .inl (hnew.trans (h.2 hnew).symm)
    · exact .inr ⟨fun hold => hnew (h.1 hold), hnew⟩
  · rintro (hsame | ⟨hold, hnew⟩)
    · exact ⟨hsame.trans, hsame.symm.trans⟩
    · exact iff_of_false hold hnew

end Same

end FrozenField

/-- Which restart-frozen fields differ between two configurations. -/
def frozenFieldChanges (prev new : RuntimeConfig) : List String :=
  (if prev.server.bind ≠ new.server.bind then ["bind"] else []) ++
    (if prev.server.port ≠ new.server.port then ["port"] else []) ++
    (if prev.server.shutdownGraceMs ≠ new.server.shutdownGraceMs then ["shutdown_grace_ms"]
      else []) ++
    (if prev.server.usageStore ≠ new.server.usageStore then ["usage_store"] else [])

lemma name_mem_frozenFieldChanges {f : FrozenField} {prev new : RuntimeConfig} :
    f.name ∈ frozenFieldChanges prev new ↔ ¬ f.Same prev new := by
  cases f <;> simp [frozenFieldChanges, FrozenField.name, FrozenField.Same]

section Published

variable {started prev new : RuntimeConfig}

/-- What a reload publishes agrees with what it read on every frozen field but the usage store. -/
lemma same_publishedConfig {f : FrozenField} (hf : f ≠ .usageStore) :
    f.Same (publishedConfig prev started) new ↔ f.Same prev new := by
  cases f with
  | usageStore => exact absurd rfl hf
  | bind | port | shutdownGraceMs => exact Iff.rfl

/-- The usage store a reload publishes is that of the configuration before, and so agrees with a
third one just when that does. -/
lemma same_usageStore_publishedConfig :
    FrozenField.usageStore.Same (publishedConfig prev started) new ↔
      FrozenField.usageStore.Same started new := Iff.rfl

end Published

namespace Reload

/-! ## Reports -/

/-- What a reload warned about, and the configuration it had read, whether or not it went on to
publish it. -/
structure Report where
  new : RuntimeConfig
  changed : List String

/-- The configuration an action reads, if it is a reload that reads one. -/
def configRead (path : String) : Action ρ → Option RuntimeConfig
  | .reload w => (readConfig w path).toOption
  | _ => none

/-- The configurations the reloads of a run read, in order. -/
def configsRead (path : String) (as : List (Action ρ)) : List RuntimeConfig :=
  as.filterMap (configRead path)

/-- The report of a reload that begins in `s`: its first statement compares what it has read with
what is published. -/
def report (s : System ρ) (a : Action ρ) : List Report :=
  ((configRead s.core.configPath a).map fun new =>
    { new, changed := frozenFieldChanges s.config new }).toList

def reports (calls : ℕ → ℕ → Governed.Call) (s : System ρ) (as : List (Action ρ)) : List Report :=
  (machine calls).ghost (fun log u a _ => log ++ report u a) [] s as

/-- The report warns about the fields whose value is not the one the process was started with. -/
def Report.Accurate (started : RuntimeConfig) (r : Report) : Prop :=
  ∀ f : FrozenField, f.name ∈ r.changed ↔ ¬ f.Same started r.new

/-- The reports of a process that has read `prev` last and goes on to read `news`. -/
def reportsFrom (started : RuntimeConfig) : RuntimeConfig → List RuntimeConfig → List Report
  | _, [] => []
  | prev, new :: news =>
      { new, changed := frozenFieldChanges (publishedConfig prev started) new } ::
        reportsFrom started new news

lemma reportsFrom_concat (started prev : RuntimeConfig) (news : List RuntimeConfig)
    (new : RuntimeConfig) :
    reportsFrom started prev (news ++ [new]) =
      reportsFrom started prev news ++
        [{ new, changed :=
            frozenFieldChanges (publishedConfig (news.getLastD prev) started) new }] := by
  induction news generalizing prev with
  | nil => rfl
  | cons next news ih => rw [List.cons_append, reportsFrom, ih, List.getLastD_cons]; rfl

lemma map_new_reportsFrom (started prev : RuntimeConfig) (news : List RuntimeConfig) :
    (reportsFrom started prev news).map Report.new = news := by
  induction news generalizing prev with
  | nil => rfl
  | cons next news ih => rw [reportsFrom, List.map_cons, ih]

/-! ## What is published -/

/-- What the published configuration is worth when `last` was read last. -/
def Carries (started last config : RuntimeConfig) : Stage → Prop
  | .idle | .published _ _ _ | .remembered _ _ => config = publishedConfig last started
  | .ensuring job _ | .installing job _ _ _ =>
      job.new = last ∧ job.prev = config ∧ config.server.usageStore = started.server.usageStore

section Carries

variable {started last config : RuntimeConfig} {stage : Stage}

/-- The usage store is always the one the process was started with. -/
lemma Carries.usageStore (h : Carries started last config stage) :
    config.server.usageStore = started.server.usageStore := by
  cases stage with
  | idle | published | remembered =>
      rw [show config = publishedConfig last started from h]
      rfl
  | ensuring job todo => exact h.2.2
  | installing job built outcome todo => exact h.2.2

variable {calls : ℕ → ℕ → Governed.Call} {s t : System ρ} {a : Action ρ}

/-- One step: a reload that begins takes what it has read, and one that publishes keeps the usage
store. -/
lemma Carries.step (h : Moves calls s a t) (hslots : Consistent s.slots s.config s.stage)
    (hs : Carries started last s.config s.stage) :
    Carries started ((configRead s.core.configPath a).getD last) t.config t.stage := by
  cases h with
  | reject hidle hread =>
      rw [hidle] at hs
      rw [configRead, hread]
      exact hs
  | start hidle hread =>
      rw [hidle] at hs
      have hstore := hs.usageStore
      rw [configRead, hread]
      exact ⟨rfl, rfl, hstore⟩
  | ensure hstage | install hstage | remember hstage | finish hstage =>
      rw [hstage] at hs
      exact hs
  | @build job hstage =>
      -- The build cannot fail, so what was read is going to be published.
      obtain ⟨built, hbuilt⟩ := Consistent.build_isOk hstage hslots
      rw [hstage] at hs
      rw [System.build_ok hbuilt]
      exact hs
  | @publish job built outcome hstage =>
      rw [hstage] at hs
      obtain ⟨hnew, hprev, hstore⟩ := hs
      show publishedConfig job.new job.prev = publishedConfig last started
      rw [hnew, hprev, publishedConfig, hstore]
      rfl
  | collect | upstream => exact hs
  | request =>
      rw [System.config_request, System.stage_request]
      exact hs

lemma configPath_of_run {as : List (Action ρ)} (h : (machine calls).run s as = some t) :
    t.core.configPath = s.core.configPath := by
  refine (machine calls).invariant_of_run
    (I := fun u => u.core.configPath = s.core.configPath) ?_ rfl h
  intro u a v hpath hstep
  exact (configPath_step (moves_of_step hstep)).trans hpath

end Carries

/-! ## Runs -/

section Runs

variable {calls : ℕ → ℕ → Governed.Call} {s t : System ρ} {as : List (Action ρ)}

lemma configsRead_append (path : String) (as bs : List (Action ρ)) :
    configsRead path (as ++ bs) = configsRead path as ++ configsRead path bs :=
  List.filterMap_append

lemma configsRead_singleton (path : String) (a : Action ρ) :
    configsRead path [a] = (configRead path a).toList := by
  cases h : configRead path a <;> simp [configsRead, h]

lemma getLastD_configsRead (path : String) (as : List (Action ρ)) (a : Action ρ)
    (config : RuntimeConfig) :
    (configsRead path (as ++ [a])).getLastD config =
      (configRead path a).getD ((configsRead path as).getLastD config) := by
  rw [configsRead_append, configsRead_singleton]
  cases configRead path a with
  | none => rw [Option.toList_none, List.append_nil, Option.getD_none]
  | some new => rw [Option.toList_some, List.getLastD_concat, Option.getD_some]

lemma Started.carries (h : Started s) : Carries s.config s.config s.config s.stage := by
  obtain ⟨-, -, -, -, -, hidle, -⟩ := h
  rw [hidle]
  rfl

/-- What a reload that begins reports, when the lock is free: the fields in which what it has read
differs from what was read last, with the usage store compared with the one at startup. -/
lemma report_eq {started last new : RuntimeConfig} {a : Action ρ} (hidle : s.stage = .idle)
    (hs : Carries started last s.config s.stage)
    (hread : configRead s.core.configPath a = some new) :
    report s a = [{ new, changed := frozenFieldChanges (publishedConfig last started) new }] := by
  rw [hidle] at hs
  rw [report, hread, Option.map_some, Option.toList_some, show s.config = _ from hs]

/-- A step that reads a configuration is one at which the lock is free. -/
lemma idle_of_configRead {a : Action ρ} {new : RuntimeConfig} (h : Moves calls s a t)
    (hread : configRead s.core.configPath a = some new) : s.stage = .idle := by
  cases h with
  | reject hidle | start hidle => exact hidle
  | _ => cases hread

/-- After every run, the reports and what is published follow from the configurations that were
read. -/
theorem carries_of_run (hs : Started s) (h : (machine calls).run s as = some t) :
    reports calls s as = reportsFrom s.config s.config (configsRead s.core.configPath as) ∧
      Carries s.config ((configsRead s.core.configPath as).getLastD s.config) t.config
        t.stage := by
  refine Machine.invariant_of_takes (I := fun as t =>
    reports calls s as = reportsFrom s.config s.config (configsRead s.core.configPath as) ∧
      Carries s.config ((configsRead s.core.configPath as).getLastD s.config) t.config t.stage)
    h ?_ ?_
  · exact ⟨rfl, hs.carries⟩
  · rintro pre u a v htakes ⟨hreports, hcarries⟩
    have hmoves := moves_of_step htakes.step
    have hslots := consistent_of_reachable (htakes.reachable hs)
    have hpath : u.core.configPath = s.core.configPath := configPath_of_run htakes.run
    have hconcat : reports calls s (pre ++ [a]) = reports calls s pre ++ report u a :=
      Machine.ghost_concat _ _ htakes.run htakes.step
    constructor
    · rw [hconcat, configsRead_append, configsRead_singleton, hreports, ← hpath]
      cases hread : configRead u.core.configPath a with
      | none =>
          have hnone : report u a = [] := by
            rw [report, hread]
            rfl
          rw [hnone, Option.toList_none, List.append_nil, List.append_nil]
      | some new =>
          rw [report_eq (idle_of_configRead hmoves hread) hcarries hread, Option.toList_some,
            reportsFrom_concat, hpath]
    · have hnext := hcarries.step hmoves hslots
      rw [hpath] at hnext
      rw [getLastD_configsRead]
      exact hnext

end Runs

/-! ## Which runs report what is running -/

/-- The warnings of a run compare with what the process was started with, one for each configuration
that was read, and the usage store stays. -/
structure FrozenReported (started : RuntimeConfig) (news : List RuntimeConfig)
    (log : List Report) (t : System ρ) : Prop where
  /-- Every reload that read a configuration has reported on it, ... -/
  complete : log.map Report.new = news
  /-- ... exactly the fields whose value is not the one that is running. -/
  accurate : ∀ r ∈ log, r.Accurate started
  /-- What is published names the usage store that is running. -/
  published : t.config.server.usageStore = started.server.usageStore

/-- Once a reload has brought another value of the field than the one the process was started
with, the next brings yet another one. -/
def Restless (f : FrozenField) (started : RuntimeConfig) (configs : List RuntimeConfig) : Prop :=
  configs.IsChain fun prev new =>
    f.Same started prev ∨ ¬ f.Same prev new ∧ ¬ f.Same started new

/-- A report is accurate just when, on every frozen field but the usage store, what was read before
agrees with what is running, or what is read now differs from both. -/
lemma accurate_iff {started prev new : RuntimeConfig} :
    Report.Accurate started
        { new, changed := frozenFieldChanges (publishedConfig prev started) new } ↔
      ∀ f : FrozenField, f ≠ .usageStore →
        f.Same started prev ∨ ¬ f.Same prev new ∧ ¬ f.Same started new := by
  simp only [Report.Accurate, name_mem_frozenFieldChanges, not_iff_not,
    ← FrozenField.same_iff_same_iff]
  constructor
  · intro h f hf
    rw [← same_publishedConfig hf]
    exact h f
  · intro h f
    by_cases hf : f = .usageStore
    · rw [hf]
      exact same_usageStore_publishedConfig
    · rw [same_publishedConfig hf]
      exact h f hf

/-- The reports of a process are all accurate just when every field but the usage store is restless.
-/
lemma reportsFrom_accurate_iff {started prev : RuntimeConfig} {news : List RuntimeConfig} :
    (∀ r ∈ reportsFrom started prev news, r.Accurate started) ↔
      ∀ f : FrozenField, f ≠ .usageStore → Restless f started (prev :: news) := by
  induction news generalizing prev with
  | nil => exact iff_of_true (List.forall_mem_nil _) fun f _ => List.isChain_singleton _
  | cons new news ih =>
      rw [reportsFrom, List.forall_mem_cons, accurate_iff, ih, ← forall₂_and]
      refine forall₂_congr fun f _ => ?_
      rw [Restless, Restless, List.isChain_cons_cons]

variable {calls : ℕ → ℕ → Governed.Call} {s t : System ρ} {as : List (Action ρ)}

/-- **When the warnings compare with what is running.**  In every interleaving of reloads and
traffic the published configuration keeps the usage store, and the warnings are right exactly if
no reload that follows a changed bind address, port or shutdown grace brings the same one again
or the one the process was started with. -/
theorem frozen_reported_iff (hs : Started s) (h : (machine calls).run s as = some t) :
    FrozenReported s.config (configsRead s.core.configPath as) (reports calls s as) t ↔
      ∀ f : FrozenField, f ≠ .usageStore →
        Restless f s.config (s.config :: configsRead s.core.configPath as) := by
  obtain ⟨hreports, hcarries⟩ := carries_of_run hs h
  rw [hreports, ← reportsFrom_accurate_iff]
  constructor
  · exact FrozenReported.accurate
  · intro haccurate
    exact ⟨map_new_reportsFrom _ _ _, haccurate, hcarries.usageStore⟩

/-! ## A port that is moved -/

lemma configsRead_reload (path : String) (w : World) (n : ℕ) (as : List (Action ρ)) :
    configsRead path (.reload w :: (List.replicate n .advance ++ as)) =
      (readConfig w path).toOption.toList ++ configsRead path as := by
  have hadvance : configsRead path (List.replicate n (.advance : Action ρ)) = [] := by
    refine List.filterMap_eq_nil_iff.2 fun a ha => ?_
    rw [List.eq_of_mem_replicate ha]
    rfl
  rw [← List.singleton_append, configsRead_append, configsRead_append, configsRead_singleton,
    hadvance, List.nil_append]
  rfl

/-- Whatever files there are, reloads can read them one after the other. -/
lemma exists_reloads (calls : ℕ → ℕ → Governed.Call) (hidle : s.stage = .idle)
    (worlds : List World) :
    ∃ as t, (machine calls).run s as = some t ∧
      configsRead s.core.configPath as =
        worlds.filterMap fun w => (readConfig w s.core.configPath).toOption := by
  induction worlds generalizing s with
  | nil => exact ⟨[], s, rfl, rfl⟩
  | cons w worlds ih =>
      obtain ⟨n, hfirst⟩ := run_reload calls w hidle
      have hpath : (s.core.reload w).2.configPath = s.core.configPath :=
        configPath_of_run hfirst
      obtain ⟨as, t, hrest, hread⟩ :=
        ih (s := { core := (s.core.reload w).2, stage := .idle, result := some _ }) rfl
      rw [hpath] at hread
      refine ⟨.reload w :: List.replicate n .advance ++ as, t, ?_, ?_⟩
      · rw [Machine.run_append, hfirst]
        exact hrest
      · rw [List.cons_append, configsRead_reload, hread]
        cases h : readConfig w s.core.configPath with
        | error e => rw [List.filterMap_cons_none (by rw [h]; rfl)]; rfl
        | ok new => rw [List.filterMap_cons_some (by rw [h]; rfl)]; rfl

/-- The document of a server with one model, at a port. -/
def portDoc (port : UInt16) : ConfigDoc := { soloDoc none [] with server := { port } }

def portConfig (port : UInt16) : RuntimeConfig :=
  { soloConfig none [] with server := Validate.serverConfig { port } }

lemma validate_port (port : UInt16) :
    validate soloPlatform (portDoc port) = .ok (portConfig port) := rfl

/-- A server on port 8080 whose file asks for one port after the other. -/
lemma exists_portRun (ports : List UInt16) :
    ∃ (s t : System Unit) (as : List (Action Unit)), Started s ∧ s.config = portConfig 8080 ∧
      (machine soloCalls).run s as = some t ∧
      configsRead s.core.configPath as = ports.map portConfig := by
  obtain ⟨s, hcore, hidle, hresult, hconfig⟩ :=
    exists_started (ρ := Unit) ⟨_, validate_port 8080⟩ "moaray.yaml"
  obtain ⟨as, t, hrun, hread⟩ :=
    exists_reloads soloCalls hidle (ports.map fun port => soloWorld (portDoc port))
  refine ⟨s, t, as, ⟨soloPlatform, _, _, ⟨_, validate_port 8080⟩, hcore, hidle, hresult⟩, hconfig,
    hrun, ?_⟩
  have hports : ((fun w => (readConfig w s.core.configPath).toOption) ∘
      fun port => soloWorld (portDoc port)) = some ∘ portConfig := rfl
  rw [hread, List.filterMap_map, hports, List.filterMap_eq_map]

/-- The file moves the port, stays, and moves it back: the second reload is silent although the
server is still on its first port, and the third one warns of the port the server is on. -/
theorem frozen_port_moved :
    ∃ (s t : System Unit) (as : List (Action Unit)), Started s ∧ s.config = portConfig 8080 ∧
      (machine soloCalls).run s as = some t ∧
      configsRead s.core.configPath as = [portConfig 9090, portConfig 9090, portConfig 8080] ∧
      (reports soloCalls s as).map Report.changed = [["port"], [], ["port"]] ∧
      ¬ FrozenReported s.config (configsRead s.core.configPath as) (reports soloCalls s as) t := by
  obtain ⟨s, t, as, hs, hconfig, hrun, hread⟩ := exists_portRun [9090, 9090, 8080]
  have hreports := (carries_of_run hs hrun).1
  rw [hread, hconfig] at hreports
  refine ⟨s, t, as, hs, hconfig, hrun, hread, by rw [hreports]; rfl, fun h => ?_⟩
  have haccurate := h.accurate
  rw [hreports, hconfig] at haccurate
  have hback : Report.Accurate (portConfig 8080) { new := portConfig 8080, changed := ["port"] } :=
    haccurate _ (.tail _ (.tail _ (.head _)))
  exact (hback .port).1 (List.mem_singleton.2 rfl) rfl

/-- The file asks for one new port and then for another one.  Neither is the port of before nor the
one the server is on, so both reloads warn, and both warnings are right. -/
theorem frozen_reported_iff_restless :
    ∃ (s t : System Unit) (as : List (Action Unit)), Started s ∧
      (machine soloCalls).run s as = some t ∧
      configsRead s.core.configPath as = [portConfig 9090, portConfig 9191] ∧
      (reports soloCalls s as).map Report.changed = [["port"], ["port"]] ∧
      FrozenReported s.config (configsRead s.core.configPath as) (reports soloCalls s as) t := by
  obtain ⟨s, t, as, hs, hconfig, hrun, hread⟩ := exists_portRun [9090, 9191]
  have hreports := (carries_of_run hs hrun).1
  rw [hread, hconfig] at hreports
  refine ⟨s, t, as, hs, hrun, hread, by rw [hreports]; rfl,
    (frozen_reported_iff hs hrun).2 fun f hf => ?_⟩
  rw [hread, hconfig]
  refine List.isChain_cons_cons.2 ⟨.inl (.refl f _), ?_⟩
  refine List.isChain_cons_cons.2 ⟨?_, List.isChain_singleton _⟩
  cases f with
  | port => exact .inr ⟨by decide, by decide⟩
  | usageStore => exact absurd rfl hf
  | _ => exact .inl rfl

end Reload

end Moaray
