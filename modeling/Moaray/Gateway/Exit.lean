import Moaray.Gateway.Ledger
import Moaray.Store.Shutdown

/-!
# What is in the table when the process is gone

The server drains, and then `main` has the usage writer flush and join.  Where the thread is joined
in time, the table holds what the requests owed, but for the rows that were counted as dropped.

* `Handed.sent_tagged` — what the sink was sent, with the requests it is for.
* `closing_of_handed` — a sink that served a run of the server is fit to be shut down.
* `exit_keeps` — the two runs, one after the other.

The run of the server ends in some state of its sink, with rows in the channel and in the buffer;
the run of the shutdown begins there.  What the shutdown needs of that state is an account of what
the writer has read and that nobody has sent a stop, and a run of the server provides both.

**Design.**  Two systems with a common part are composed by handing the part over: the sink at the
end of the one is the sink at the beginning of the other.  Requests may still be in flight then,
and record rows while the call is running; the theorem is about what was booked before.
-/

namespace Moaray

open Framework Json Store

namespace Server

variable {ρ : Type} {serde : SerdeJson} {reader : RequestReader}
  {calls : ℕ → ℕ → Governed.Call} {capacity batch : ℕ} {s t : State ρ} {as : List (Action ρ)}

/-- What the sink was sent are booked rows, and those it was not sent are counted. -/
lemma Handed.sent_tagged (h : Handed capacity batch s) :
    ∃ tagged : List (ℕ × UsageRecord), tagged.Sublist s.booked ∧
      tagged.map Prod.snd = rowsOf s.sink.sent ∧
      s.booked.length = tagged.length + s.sink.dropped := by
  obtain ⟨tagged, htagged, hmap⟩ := List.sublist_map_iff.1 h.sent
  refine ⟨tagged, htagged, hmap.symm, ?_⟩
  obtain ⟨_, bs, rfl, hrun⟩ := h.sink
  have hbalance : s.sink.records = s.sink.dropped + (rowsOf s.sink.sent).length :=
    balanced_of_run hrun
  rw [← h.records, hbalance, hmap, List.length_map, Nat.add_comm]

/-- A sink nobody has stopped can be shut down, whatever the server has done with it. -/
lemma closing_of_handed (h : Handed capacity batch s) (hstop : WriterMsg.stop ∉ s.sink.sent)
    {u : UsageWriterHandle.State} (hsink : u.sink = s.sink) (hidle : u.stage = .idle) :
    UsageWriterHandle.Closing batch u ∧ UsageWriterHandle.Timely u := by
  refine ⟨⟨?_, fun _ => ?_, fun time htime => ?_⟩, ?_⟩
  · rw [hsink]
    exact read_of_reachable h.sink
  · rwa [hsink]
  · rw [hidle] at htime
    cases htime
  · rw [UsageWriterHandle.Timely, hidle]
    trivial

/-- **What a clean exit leaves behind.**  After any run of the server whose writer nobody has
stopped, and a `flush_and_join` that joined the thread with no transaction failed: the call was
over within its timeout, the table begins with the rows the server booked, in their order, but for
those counted as dropped, and where none was dropped it has all an answered request owes. -/
theorem exit_keeps (hs : Started s)
    (h : (machine serde reader calls capacity batch).run s as = some t)
    (hstop : WriterMsg.stop ∉ t.sink.sent) {u v : UsageWriterHandle.State}
    {bs : List UsageWriterHandle.Action} {timeout time : ℕ} (hsink : u.sink = t.sink)
    (hidle : u.stage = .idle)
    (hrun : (UsageWriterHandle.machine capacity batch).run u (.flushAndJoin timeout :: bs) = some v)
    (hjoined : v.stage = .joined time) (hcommitted : ∀ tr ∈ v.sink.log, tr.committed = true) :
    time ≤ u.now + timeout + 1 ∧
    ∃ tagged : List (ℕ × UsageRecord), tagged.Sublist t.booked ∧
      tagged.map Prod.snd <+: committedRows v.sink.log ∧
      t.booked.length = tagged.length + t.sink.dropped ∧
      ∀ id f response, t.flights id = some f → f.stage = .answered response →
        ∃ w : Surroundings ρ, w.serde = serde ∧ w.reader = reader ∧
          (∀ r ∈ readings serde reader calls capacity batch id s as, Has w r) ∧
          Entered w f (t.sink.dropped = 0) (rowsFor id tagged) := by
  have hhanded := handed_of_run hs h
  obtain ⟨tagged, htagged, hmap, hcount⟩ := hhanded.sent_tagged
  obtain ⟨hkept, -, -⟩ :=
    UsageWriterHandle.call_keeps (closing_of_handed hhanded hstop hsink hidle) hrun
  obtain ⟨htime, hwritten⟩ := hkept time hjoined
  refine ⟨htime, tagged, htagged, ?_, hcount, fun id f response hf hanswered => ?_⟩
  · rw [hmap, committedRows_of_committed hcommitted, ← hsink]
    exact hwritten
  · have hbooks : f.stage.books := by
      rw [hanswered]
      trivial
    obtain ⟨w, hserde, hreader, hlog, hfirst, hall⟩ :=
      (account_of_run hs h id).owes hf hbooks
    have hrows : (rowsFor id tagged).Sublist (t.bookedFor id) := (htagged.filter _).map _
    have howed := hrows.trans hfirst.sublist
    refine ⟨w, hserde, hreader, hlog, howed, fun row hrow => backed_of_owed (howed.subset hrow), ?_⟩
    intro hnone response' hresponse'
    obtain rfl : tagged = t.booked := htagged.eq_of_length (by rw [hcount, hnone, Nat.add_zero])
    exact hall response' hresponse'

/-- The call finds two rows in the channel: they fill a batch, the flush behind them is
acknowledged, and the thread ends at the stop. -/
def busyExit : List UsageWriterHandle.Action :=
  [.advance, .sink .recv, .sink (.drain false), .sink (.drain false), .sink (.transact true),
    .sink .recv, .sink (.drain true), .sink (.transact true), .advance, .advance, .sink .recv,
    .sink (.drain true), .sink (.transact true), .sink (.finish true), .advance]

def exitOf (sink : Store.State) : Option UsageWriterHandle.State :=
  (UsageWriterHandle.machine 8 2).run { UsageWriterHandle.cleanStart with sink }
    (.flushAndJoin 5000 :: busyExit)

/-- The thread was joined without a wait, and no transaction failed. -/
def endedWell (v : UsageWriterHandle.State) : Bool :=
  decide (v.stage = .joined 7) && v.sink.log.all fun tr => tr.committed

/-- When the busy server has drained, two of its three rows are still in the channel; when the
process is gone, all three are in the table. -/
theorem exit_keeps_busy :
    ∃ (s t : State Unit) (v : UsageWriterHandle.State) (tagged : List (ℕ × UsageRecord))
      (w : Surroundings Unit), Started s ∧
      (machine busySerde busyReader Reload.soloCalls 8 2).run s busySteps = some t ∧
      exitOf t.sink = some v ∧ (Store.committedRows t.sink.log).length = 1 ∧
      tagged.map Prod.snd <+: Store.committedRows v.sink.log ∧ tagged.length = 3 ∧
      (App.chatCompletions w recipeRequest).rows = rowsFor 1 tagged := by
  obtain ⟨s, t, hs, hrun, htest⟩ := exists_busyRun
    (fun t => t.succeeded 1 recipeRequest &&
      (exitOf t.sink).any endedWell &&
      decide (WriterMsg.stop ∉ t.sink.sent ∧ t.sink.dropped = 0 ∧ t.booked.length = 3 ∧
        (Store.committedRows t.sink.log).length = 1))
    (by decide +kernel)
  simp only [Bool.and_eq_true, decide_eq_true_eq] at htest
  obtain ⟨⟨hrecipe, hexit⟩, hstop, hdropped, hbooked, hcommitted⟩ := htest
  obtain ⟨v, hv, hend⟩ : ∃ v, exitOf t.sink = some v ∧ endedWell v = true := by
    simpa [Option.any_eq_true] using hexit
  simp only [endedWell, Bool.and_eq_true, decide_eq_true_eq, List.all_eq_true] at hend
  obtain ⟨response, hflight, -⟩ := State.exists_of_succeeded hrecipe
  obtain ⟨-, tagged, -, hprefix, hcount, hall⟩ :=
    exit_keeps hs hrun hstop rfl rfl hv hend.1 hend.2
  obtain ⟨w, -, -, -, hentered⟩ := hall 1 _ response hflight rfl
  refine ⟨s, t, v, tagged, w, hs, hrun, hv, hcommitted, hprefix, ?_, ?_⟩
  · rw [← hbooked, hcount, hdropped, Nat.add_zero]
  · exact (hentered.complete hdropped response rfl).symm

end Server

end Moaray
