import Moaray.Framework.Labelled
import Moaray.Gateway.Ledger
import Moaray.Gateway.RequestCount

/-!
# The metrics and the usage table tell one story

Counters and rows are written apart, by requests that run side by side, and the rows pass a sink
that may drop them.  Summed over the requests that are through with their booking they agree.

* `Reconciled` — what the counters say about the rows.
* `reconciled_passthrough`, `reconciled_runMoa` — the two paths; `reconciled_chatCompletions`: one
  request.
* `reconciles` — every run of the server, and the table a writer leaves.

An operator has two sources: counters of requests, errors, arms and unpriced rows, and the table.
Arms that were counted are compared with rows of arms, label by label; relayed requests with rows
of passthroughs, errors and streams, which have no row; and unpriced counts with unpriced rows.

**Design.**  `Reconciled` is a relation between a list of metrics and a list of rows that adds up
and does not see their order.  So it is proved for one request, where it is a matter of the two
paths, and holds of the whole server by the library on labelled lists, with requests as the labels.
-/

namespace Moaray

open Framework Json

def isRequestOn (path : RequestPath) : Metric → Bool
  | .requestsTotal p _ _ => p = path.asStr
  | _ => false

def isErrorOn (path : RequestPath) : Metric → Bool
  | .errorsTotal p _ _ => p = path.asStr
  | _ => false

def isRequestOf (path : RequestPath) (model : String) : Metric → Bool
  | .requestsTotal p m _ => p = path.asStr ∧ m = model
  | _ => false

def isErrorOf (path : RequestPath) (model : String) : Metric → Bool
  | .errorsTotal p m _ => p = path.asStr ∧ m = model
  | _ => false

/-- What the counters say about the rows: four balances, each a count of metrics against a count of
rows. -/
structure Reconciled (metrics : List Metric) (rows : List UsageRecord) : Prop where
  /-- Every arm that is counted has its row, under the same labels. -/
  arms : ∀ model upstreamId cls,
    metrics.countP (· = .moaArmTotal model upstreamId cls) =
      rows.countP fun row =>
        row.path = .moa ∧ row.model = model ∧ row.upstreamId = upstreamId ∧
          App.armClass row.status = cls
  unpriced : metrics.countP (· = .usageUnpricedTotal) = rows.countP (·.status = .unpriced)
  /-- A relayed request leaves a row, or was an error, or streamed. -/
  relayed :
    metrics.countP (isRequestOn .passthrough) =
      rows.countP (·.path = .passthrough) + metrics.countP (isErrorOn .passthrough) +
        metrics.countP (· = .usageUnaccountedStreamTotal)
  /-- The rows and errors of a model are among its requests. -/
  ofModel : ∀ model,
    (rows.countP fun row => row.path = .passthrough ∧ row.model = model) +
        metrics.countP (isErrorOf .passthrough model) ≤
      metrics.countP (isRequestOf .passthrough model)

lemma reconciled_addsUp : AddsUp Reconciled where
  nil := ⟨fun _ _ _ => rfl, rfl, rfl, fun _ => Nat.le_refl 0⟩
  append {a a' b b'} h h' := by
    refine ⟨fun model upstreamId cls => ?_, ?_, ?_, fun model => ?_⟩
    · simp only [List.countP_append, h.arms, h'.arms]
    · simp only [List.countP_append, h.unpriced, h'.unpriced]
    · simp only [List.countP_append, h.relayed, h'.relayed]
      omega
    · have hone := h.ofModel model
      have hother := h'.ofModel model
      simp only [List.countP_append]
      omega
  perm {a a' b b'} ha hb h := by
    refine ⟨fun model upstreamId cls => ?_, ?_, ?_, fun model => ?_⟩
    · rw [← ha.countP_eq, ← hb.countP_eq, h.arms]
    · rw [← ha.countP_eq, ← hb.countP_eq, h.unpriced]
    · rw [← ha.countP_eq, ← ha.countP_eq, ← ha.countP_eq, ← hb.countP_eq, h.relayed]
    · rw [← ha.countP_eq, ← ha.countP_eq, ← hb.countP_eq]
      exact h.ofModel model

namespace App

variable {ρ : Type} {w : Surroundings ρ} {req : Request}

/-! ## One request -/

/-- A request that is not relayed reaches no counter of rows. -/
lemma reconciled_recordRequest {path : RequestPath} (h : path ≠ .passthrough) (model : String)
    (status : UInt16) : Reconciled (recordRequest path model status) [] := by
  have hpath : path.asStr ≠ RequestPath.passthrough.asStr := by
    cases path with
    | passthrough => exact absurd rfl h
    | moa | preRouting => decide
  unfold recordRequest countRequest
  split <;> constructor <;> simp [isRequestOn, isErrorOn, isRequestOf, isErrorOf, hpath]

lemma reconciled_recordRejection (status : UInt16) : Reconciled (recordRejection status) [] := by
  have hpath : RequestPath.preRouting.asStr ≠ RequestPath.passthrough.asStr := by decide
  unfold recordRejection countRequest
  split <;> constructor <;> simp [isRequestOn, isErrorOn, isRequestOf, isErrorOf, hpath]

/-- A relayed call that failed is counted as a request and an error, and has no row. -/
lemma reconciled_failed {status : UInt16} (h : 400 ≤ status) (model : String) :
    Reconciled (recordRequest .passthrough model status) [] := by
  unfold recordRequest countRequest
  rw [if_pos h]
  constructor <;> simp [List.countP_cons, isRequestOn, isErrorOn, isRequestOf, isErrorOf]

/-- A relayed stream is counted as a request and as a stream that is not accounted for, and has no
row. -/
lemma reconciled_streamed {status : UInt16} (h : ¬ 400 ≤ status) (model : String) :
    Reconciled (recordRequest .passthrough model status ++ [.usageUnaccountedStreamTotal]) [] := by
  unfold recordRequest countRequest
  rw [if_neg h]
  constructor <;> simp [List.countP_cons, isRequestOn, isErrorOn, isRequestOf, isErrorOf]

/-- A relayed body is counted as a request, and has its row. -/
lemma reconciled_relayed {status : UInt16} (h : ¬ 400 ≤ status) (b : Booking) (model : String)
    (upstreamId : String) (raw : RawResponse) :
    let row := passthroughRow b model upstreamId raw
    Reconciled (recordRequest .passthrough model status ++ countUnpriced row) [row] := by
  intro row
  have hpath : row.path = .passthrough := rfl
  have hmodel : row.model = model := rfl
  unfold recordRequest countRequest countUnpriced
  rw [if_neg h]
  split <;> rename_i hstatus <;> constructor <;>
    simp [List.countP_cons, isRequestOn, isErrorOn, isRequestOf, isErrorOf, hpath, hmodel, hstatus]

/-- An arm, with its row. -/
lemma reconciled_arm (b : Booking) (kind : UsageArm) (arm : Moa.ArmOutcome) :
    Reconciled (armMetrics arm (bookMoaArm b kind arm)) [bookMoaArm b kind arm] := by
  have hclass := armClass_bookMoaArm b kind arm
  have hpath : (bookMoaArm b kind arm).path = .moa := rfl
  have hmodel : (bookMoaArm b kind arm).model = arm.model := rfl
  have hupstream : (bookMoaArm b kind arm).upstreamId = arm.upstreamId := rfl
  unfold armMetrics recordMoaArm countUnpriced
  rw [← hclass, ← hmodel, ← hupstream]
  split <;> rename_i hstatus <;> constructor <;>
    simp [List.countP_cons, isRequestOn, isErrorOn, isRequestOf, isErrorOf, hpath, hstatus]

lemma reconciled_arms (b : Booking) (arms : List (UsageArm × Moa.ArmOutcome)) :
    let booked := arms.map fun arm => (arm.2, bookMoaArm b arm.1 arm.2)
    Reconciled (booked.flatMap fun arm => armMetrics arm.1 arm.2) (booked.map Prod.snd) := by
  induction arms with
  | nil => exact reconciled_addsUp.nil
  | cons arm arms ih => exact reconciled_addsUp.append (reconciled_arm b arm.1 arm.2) ih

lemma reconciled_passthrough (requestId : String) (auth : AuthContext) (raw : Bytes)
    (model : String) (stream : Bool) (provider : ProviderRef) (runtime : Runtime) :
    let served := passthrough w requestId auth raw model stream provider runtime
    Reconciled served.metrics served.rows := by
  unfold passthrough
  split
  · rename_i rawResp hcall
    obtain ⟨-, hlt⟩ := rawCall_status hcall
    have hsuccess : ¬ 400 ≤ rawResp.status := by grind
    split
    · exact reconciled_streamed hsuccess model
    · exact reconciled_relayed hsuccess _ model provider.upstreamId rawResp
  · rename_i e hcall
    exact reconciled_failed e.envelope_status.1 model

lemma reconciled_runMoa (requestId callerKeyId recipe : String) (raw : Bytes) (model : String)
    (runtime : Runtime) :
    let served := runMoa w requestId callerKeyId recipe raw model runtime
    Reconciled served.metrics served.rows := by
  have hmoa : RequestPath.moa ≠ .passthrough := by decide
  unfold runMoa
  split
  · exact reconciled_addsUp.nil
  · split
    · exact reconciled_recordRequest hmoa model _
    · rename_i run _
      have harms := reconciled_arms (booking w requestId callerKeyId runtime) (bookedArms run)
      have hall := fun status =>
        reconciled_addsUp.append harms (reconciled_recordRequest hmoa model status)
      simp only [List.append_nil] at hall
      split
      · exact hall 200
      · exact hall _

/-- The counters and the rows of one request agree, however it ends: refused, relayed, streamed or
answered by a panel. -/
theorem reconciled_chatCompletions (w : Surroundings ρ) (req : Request) :
    Reconciled (chatCompletions w req).metrics (chatCompletions w req).rows := by
  unfold chatCompletions
  split
  · exact reconciled_recordRejection _
  · rename_i routed _
    cases routed with
    | passthrough auth raw model stream provider runtime => exact reconciled_passthrough ..
    | moa callerKeyId recipe raw model runtime => exact reconciled_runMoa ..

end App

namespace Server

variable {ρ : Type} {serde : SerdeJson} {reader : RequestReader}
  {calls : ℕ → ℕ → Governed.Call} {capacity batch : ℕ} {s t : State ρ} {as : List (Action ρ)}

/-! ## Every run -/

/-- A request is in the midst of its booking. -/
def Stage.recording : Stage → Bool
  | .booking .. => true
  | _ => false

/-- A request has left behind all it is going to. -/
def State.recorded (s : State ρ) (id : ℕ) : Bool :=
  (s.flights id).all fun f => !f.stage.recording

/-- The increments of the requests that have made all of theirs. -/
def State.countedBy (s : State ρ) : List Metric :=
  (s.counted.filter fun c => s.recorded c.1).map Prod.snd

/-- The rows of the requests that have booked all of theirs. -/
def State.bookedBy (s : State ρ) : List UsageRecord :=
  (s.booked.filter fun b => s.recorded b.1).map Prod.snd

lemma Account.reconciled {id : ℕ} {log : List (Reading ρ)} (h : Account serde reader id log s)
    (hrecorded : s.recorded id) : Reconciled (s.countedFor id) (s.bookedFor id) := by
  have hnothing : s.countedFor id = [] ∧ s.bookedFor id = [] →
      Reconciled (s.countedFor id) (s.bookedFor id) := by
    rintro ⟨hcounted, hbooked⟩
    rw [hcounted, hbooked]
    exact reconciled_addsUp.nil
  cases hf : s.flights id with
  | none =>
      rw [Account, hf] at h
      exact hnothing h.2
  | some f =>
      obtain ⟨req, stage⟩ := f
      obtain ⟨w, -, -, hstands⟩ := h.of_flight hf
      cases stage with
      | booking => simp [State.recorded, hf, Stage.recording] at hrecorded
      | answered response =>
          have hserved := App.reconciled_chatCompletions w req
          rw [hstands.2] at hserved
          exact hserved
      | arrived => exact hnothing hstands.2
      | authenticated => exact hnothing hstands.2.2.2
      | limited => exact hnothing hstands.2.2.2.2
      | routed => exact hnothing hstands.2.2
      | calling => exact hnothing hstands.2.2.2.2
      | dropped => exact hnothing hstands

/-- **The metrics and the ledger tell one story.**  In every state of every run, summed over the
requests that are through with their booking: the arm counter has one increment for each row of an
arm, under the labels of its row; the unpriced counter has one for each row without a price; and
every relayed request left a row, or was an error, or streamed.  When all are through, the table
holds some of the rows the counters tell of, and all of them if the writer ended without a loss. -/
theorem reconciles (hs : Started s)
    (h : (machine serde reader calls capacity batch).run s as = some t) :
    Reconciled t.countedBy t.bookedBy ∧
      ((∀ id, t.recorded id) →
        ∃ rows, Reconciled (t.counted.map Prod.snd) rows ∧ rows.length = t.sink.records ∧
          (Store.committedRows t.sink.log).Sublist rows ∧
          (Store.Settled t.sink → Store.committedRows t.sink.log = rows)) := by
  have hhanded := handed_of_run hs h
  have hdone : Reconciled t.countedBy t.bookedBy := by
    refine reconciled_addsUp.of_labelled fun id => ?_
    rw [labelled_filter t.recorded, labelled_filter t.recorded]
    split
    · rename_i hrecorded
      exact (account_of_run hs h id).reconciled hrecorded
    · exact reconciled_addsUp.nil
  refine ⟨hdone, fun hall => ⟨t.booked.map Prod.snd, ?_, ?_, hhanded.table⟩⟩
  · have hcounted : t.countedBy = t.counted.map Prod.snd := by
      rw [State.countedBy, List.filter_eq_self.2 fun c _ => hall c.1]
    have hbooked : t.bookedBy = t.booked.map Prod.snd := by
      rw [State.bookedBy, List.filter_eq_self.2 fun b _ => hall b.1]
    rw [← hcounted, ← hbooked]
    exact hdone
  · rw [List.length_map, hhanded.records]

/-- Every request of the busy server is through: two of its three rows are arms, one has no price,
and one has been committed. -/
theorem reconciles_busy :
    ∃ s t : State Unit, Started s ∧
      (machine busySerde busyReader Reload.soloCalls 8 2).run s busySteps = some t ∧
      ∃ rows, Reconciled (t.counted.map Prod.snd) rows ∧ rows.length = 3 ∧
        (t.counted.map Prod.snd).count (.moaArmTotal "gpt" "gpt" "ok") = 2 ∧
        (t.counted.map Prod.snd).count .usageUnpricedTotal = 1 ∧
        (Store.committedRows t.sink.log).Sublist rows ∧
        (Store.committedRows t.sink.log).length = 1 := by
  obtain ⟨s, t, hs, hrun, htest⟩ := exists_busyRun
    (fun t => t.recorded 0 && t.recorded 1 && t.recorded 2 && decide (t.sink.records = 3 ∧
      (t.counted.map Prod.snd).count (.moaArmTotal "gpt" "gpt" "ok") = 2 ∧
      (t.counted.map Prod.snd).count .usageUnpricedTotal = 1 ∧
      (Store.committedRows t.sink.log).length = 1))
    (by decide +kernel)
  simp only [Bool.and_eq_true, decide_eq_true_eq] at htest
  obtain ⟨⟨⟨hrelay, hrecipe⟩, hgone⟩, hrecords, harms, hunpriced, hcommitted⟩ := htest
  have hall : ∀ id, t.recorded id = true := by
    intro id
    match id with
    | 0 => exact hrelay
    | 1 => exact hrecipe
    | 2 => exact hgone
    | id + 3 =>
        -- Nobody else has come in.
        have hthree : busySteps.all fun a => a.request.all (· < 3) := by decide +kernel
        have hother : t.flights (id + 3) = s.flights (id + 3) := by
          refine flights_of_run hrun fun a ha heq => ?_
          have hlt := List.all_eq_true.1 hthree a ha
          rw [heq, Option.all_some, decide_eq_true_eq] at hlt
          omega
        rw [State.recorded, hother, hs.2.1]
        rfl
  obtain ⟨rows, hreconciled, hlength, hsub, -⟩ := (reconciles hs hrun).2 hall
  exact ⟨s, t, hs, hrun, rows, hreconciled, hlength.trans hrecords, harms, hunpriced, hsub,
    hcommitted⟩

end Server

end Moaray
